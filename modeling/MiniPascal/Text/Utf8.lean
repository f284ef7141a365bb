import MiniPascal.Text.Basic

/-! # Reading bytes as text

At each position a well-formed sequence of UTF-8 is one character, and a byte that starts none is a
stray byte on its own. `Lead` also tells a sequence that
is broken from one that only lacks its last bytes, which matters where input arrives in blocks.
-/

namespace MiniPascal

/-- What stands at the start of a run of bytes. -/
inductive Lead where
  /-- A character, spelled by the first `size` bytes. -/
  | char (c : Char) (size : Nat)
  /-- A byte that starts no character, whatever follows. -/
  | broken
  /-- The start of a character whose last bytes are missing. -/
  | short
deriving DecidableEq

/-- The length a first byte announces, and the bounds it sets for the second byte. -/
def announced? (first : UInt8) : Option (Nat × UInt8 × UInt8) :=
  if first < 0xC2 then none
  else if first ≤ 0xDF then some (2, 0x80, 0xBF)
  else if first = 0xE0 then some (3, 0xA0, 0xBF)
  else if first = 0xED then some (3, 0x80, 0x9F)
  else if first ≤ 0xEF then some (3, 0x80, 0xBF)
  else if first = 0xF0 then some (4, 0x90, 0xBF)
  else if first ≤ 0xF3 then some (4, 0x80, 0xBF)
  else if first = 0xF4 then some (4, 0x80, 0x8F)
  else none

def continues (byte : UInt8) : Bool := 0x80 ≤ byte && byte ≤ 0xBF

/-- The six payload bits of a continuing byte, below the bits read so far. -/
def extend (code : Nat) (byte : UInt8) : Nat := code * 64 + byte.toNat % 64

/-- Reads the first character of a run of bytes. -/
def Lead.of : Bytes → Lead
  | [] => .short
  | a :: rest =>
    if a < 0x80 then .char (Char.ofNat a.toNat) 1
    else match announced? a with
      | none => .broken
      | some (size, low, high) =>
        match rest with
        | [] => .short
        | b :: rest =>
          if b < low || high < b then .broken
          else if size = 2 then .char (Char.ofNat (extend (a.toNat % 32) b)) 2
          else match rest with
            | [] => .short
            | c :: rest =>
              if !continues c then .broken
              else if size = 3 then .char (Char.ofNat (extend (extend (a.toNat % 16) b) c)) 3
              else match rest with
                | [] => .short
                | d :: _ =>
                  if !continues d then .broken
                  else .char (Char.ofNat (extend (extend (extend (a.toNat % 8) b) c) d)) 4

/-- Reads bytes as text after passing over the first `skip` of them. -/
def Text.ofBytesFrom : (skip : Nat) → Bytes → Text
  | _, [] => []
  | skip + 1, _ :: rest => ofBytesFrom skip rest
  | 0, byte :: rest =>
    match Lead.of (byte :: rest) with
    | .char c size => .char c :: ofBytesFrom (size - 1) rest
    | .broken | .short => .stray byte :: ofBytesFrom 0 rest

def Text.ofBytes (bytes : Bytes) : Text := ofBytesFrom 0 bytes

end MiniPascal
