import MiniPascal.Failure

/-! # Arithmetic of the machine

Integers are 64-bit words, and an operation on them either has its exact result or fails. The words
wrap around, so each operation tests afterwards whether they did. A real operation whose result is
not finite fails too.
-/

namespace MiniPascal

def leastWord : Int64 := Int64.minValue

/-- An integer operation; every operation but the other three adds. -/
def integerOperation (op : Opcode) (a b : Int64) : Except Failure Int64 :=
  match op with
  | .div =>
    if b = 0 then .error .divisionByZero
    else if a = leastWord ∧ b = -1 then .error .overflow
    else .ok (a / b)
  | .mul =>
    let c := a * b
    if a ≠ 0 ∧ (c / a ≠ b ∨ (a = -1 ∧ b = leastWord)) then .error .overflow else .ok c
  | .sub =>
    let c := a - b
    if decide (c < a) ≠ decide (0 < b) then .error .overflow else .ok c
  | _ =>
    let c := a + b
    if decide (a < c) ≠ decide (0 < b) then .error .overflow else .ok c

/-- A real operation; every operation but the other three adds. -/
def realOperation (op : Opcode) (a b : Float) : Except Failure Float :=
  let c := match op with
    | .div => a / b
    | .mul => a * b
    | .sub => a - b
    | _ => a + b
  if isFiniteReal c then .ok c else .error .notFinite

/-- The least real above all words. -/
def wordLimit : Float := 9223372036854775808

/-- The word a real is stored as: it is cut off toward zero, and has to fit. -/
def realToWord (x : Float) : Except Failure Int64 :=
  if wordLimit ≤ x ∨ x < -wordLimit then .error .overflow else .ok (Int64.ofInt (truncate x))

def Value.sign : Value → Except AccessError Int
  | .int n => .ok (if n < 0 then -1 else if 0 < n then 1 else 0)
  | value => value.asReal.map fun x => if x < 0 then -1 else if 0 < x then 1 else 0

end MiniPascal
