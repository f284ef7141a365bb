import MiniPascal.Machine.Execute
import MiniPascal.Proofs.Syntax

/-! # What a program means

A big-step semantics of syntax trees: without cells, temporaries or jumps. A store gives every variable
a value, whatever the case its name is written in. Names of literals are no different: text literals that
differ only in the case of their letters are one, and all of them mean what the first one says. Integers
are calculated with exactly and have to fit in a word; where a real is involved, the doubles are given. A
relation is decided by the sign of a difference. A `FOR` evaluates both its expressions before it assigns
its counter.

A statement goes on in another state or ends the program, because of a fault or because there is no
integer to read. The semantics can be evaluated: loops are given a number of rounds, and what takes more
is unfinished. A program that is unfinished for every number of rounds runs forever.
-/

namespace MiniPascal

/-! ## Where integers come from -/

/-- How an integer was asked for: what was shown, the answer, and the input that is left. -/
structure Dialogue where
  shown : Bytes
  answer : Except Failure Int64
  rest : Input

/-- The dialogue for an integer: the prompt is repeated until a line holds one, for at most `fuel`
lines. -/
def Input.dialogueWithin (prompt : Text) : (fuel : Nat) → Input → Dialogue
  | 0, input => ⟨[], .error .endOfInput, input⟩
  | fuel + 1, input =>
    match input.readLine with
    | (.error failure, rest) => ⟨prompt.bytes, .error failure, rest⟩
    | (.ok line, rest) =>
      match lineInteger? line with
      | some n => ⟨prompt.bytes, .ok n, rest⟩
      | none =>
        let later := rest.dialogueWithin prompt fuel
        ⟨prompt.bytes ++ (retryMessage.line.bytes ++ later.shown), later.answer, later.rest⟩

/-- The dialogue for an integer. -/
def Input.dialogue (input : Input) (prompt : Text) : Dialogue :=
  input.dialogueWithin prompt (input.unread + 1)

/-- Integers are typed, line by line, or come from a script. -/
inductive Feed where
  | typed (input : Input)
  | scripted (script : Script)

/-- Asks for an integer: what is shown, the answer, and what is left. A script shows nothing. -/
def Feed.ask (prompt : Text) : Feed → Bytes × Except Failure Int64 × Feed
  | typed input =>
    ((input.dialogue prompt).shown, (input.dialogue prompt).answer,
      .typed (input.dialogue prompt).rest)
  | scripted script => ([], (script.read prompt).1, .scripted (script.read prompt).2)

/-! ## Values -/

/-- Why a program cannot go on. -/
inductive Fault where
  | divisionByZero
  | overflow
  | notFinite
  /-- A text where there has to be a number, or a number where there has to be a text. -/
  | wrongKind
deriving DecidableEq

namespace Value

/-- A number as a double. -/
def double : Value → Except Fault Float
  | int n => .ok (Float.ofInt n.toInt)
  | real x => .ok x
  | text _ => .error .wrongKind

/-- A value as a variable of the given kind takes it. -/
def fit : Value → Kind → Except Fault Value
  | int n, .integer => .ok (int n)
  | int n, .real => .ok (real (Float.ofInt n.toInt))
  | real x, .integer =>
    if wordLimit ≤ x ∨ x < -wordLimit then .error .overflow
    else .ok (int (Int64.ofInt (MiniPascal.truncate x)))
  | real x, .real => .ok (real x)
  | text t, .text => .ok (text t)
  | _, _ => .error .wrongKind

/-- The sign of a number. -/
def signum : Value → Int
  | int n => n.toInt.sign
  | real x => if x < 0 then -1 else if 0 < x then 1 else 0
  | text _ => 0

end Value

/-- The quote character that is used unless another one is asked for. -/
abbrev usualQuote : Char := '\''

/-- The value of a number literal: an integer if it consists of digits, otherwise a real. -/
def numberValue? (chars : List Char) : Option Value :=
  ((readWhole? chars).map .int).or ((readReal? chars).map .real)

/-- The value of a literal: what stands between the quotes, or a number. -/
def literalValue (name : Text) : Value :=
  if name.chars.head? = some usualQuote then .text (.ofChars name.chars.tail.dropLast)
  else (numberValue? name.chars).getD (.int 0)

namespace Syntax

/-- The exact result of an operation on integers. -/
def Operator.exactly : Operator → Int → Int → Except Fault Int
  | add, a, b => .ok (a + b)
  | sub, a, b => .ok (a - b)
  | mul, a, b => .ok (a * b)
  | div, a, b => if b = 0 then .error .divisionByZero else .ok (a.tdiv b)

/-- The operation on doubles. -/
def Operator.onDoubles : Operator → Float → Float → Float
  | add, a, b => a + b
  | sub, a, b => a - b
  | mul, a, b => a * b
  | div, a, b => a / b

/-- The result of an operation: an integer if both operands are, otherwise a real. -/
def Operator.apply (op : Operator) : Value → Value → Except Fault Value
  | .int a, .int b =>
    (op.exactly a.toInt b.toInt).bind fun n => ((word? n).map .int).elim (.error .overflow) .ok
  | x, y =>
    x.double.bind fun a => y.double.bind fun b =>
      if isFiniteReal (op.onDoubles a b) then .ok (.real (op.onDoubles a b)) else .error .notFinite

/-- Whether a comparison holds, by the sign of the difference. -/
def Comparison.holds : Comparison → Int → Bool
  | equal, sign => sign = 0
  | notEqual, sign => sign ≠ 0
  | less, sign => sign < 0
  | greater, sign => 0 < sign
  | lessEq, sign => sign ≤ 0
  | greaterEq, sign => 0 ≤ sign

/-- The values of the variables. -/
abbrev Store := Text → Value

/-- A store with another value for one variable. -/
def Store.set (store : Store) (name : Text) (value : Value) : Store :=
  fun other => if name.SameName other then value else store other

section Expressions

variable (meaning : Text → Value) (store : Store)

/-- The value of an expression, if literals have the given meaning. -/
def Expr.eval : Expr → Except Fault Value
  | literal name => .ok (meaning name)
  | var name => .ok (store name)
  | negated e => e.eval.bind fun x => Operator.mul.apply x (.int (-1))
  | operation op left right => left.eval.bind fun x => right.eval.bind fun y => op.apply x y

/-- Whether a relation holds. -/
def Relation.eval (r : Relation) : Except Fault Bool :=
  (r.left.eval meaning store).bind fun x => (r.right.eval meaning store).bind fun y =>
    (Operator.sub.apply x y).map fun difference => r.comparison.holds difference.signum

end Expressions

/-- Whether an expression is nothing but the given variable. -/
def Expr.isVariable (name : Text) : Expr → Bool
  | var other => name.SameName other
  | _ => false

theorem Expr.isVariable_iff {name : Text} {e : Expr} :
    e.isVariable name = true ↔ ∃ other, e = .var other ∧ name.SameName other := by
  cases e with
  | var other => simp [isVariable]
  | literal | negated | operation => simp [isVariable]

/-! ## Statements -/

/-- What the names of a program are: variables have a kind and a spelling in which they are shown, literals
have a meaning. -/
structure Naming where
  kind : Text → Kind
  spelling : Text → Text
  meaning : Text → Value

/-- The state of a program: its variables, the integers to come, and all that was shown so far. -/
structure State where
  store : Store
  feed : Feed
  shown : Bytes

/-- Why a program ends. -/
inductive Ending where
  | finished
  /-- An integer could not be had. -/
  | unanswered (failure : Failure)
  | faulted (fault : Fault)

/-- What comes of a part of a program: it goes on with a result, it ends the program, or it takes more
rounds than it was given. -/
inductive Course (α : Type) where
  | goesOn (result : α)
  | ends (ending : Ending) (state : State)
  | unfinished

namespace Course

/-- Goes on with the result. -/
def bind {α β : Type} : Course α → (α → Course β) → Course β
  | goesOn result, f => f result
  | ends ending state, _ => .ends ending state
  | unfinished, _ => .unfinished

instance : Monad Course where
  pure := goesOn
  bind := bind

end Course

namespace State

/-- Goes on with a result, or ends the program with a fault. -/
def attempt {α : Type} (state : State) : Except Fault α → Course α
  | .ok result => .goesOn result
  | .error fault => .ends (.faulted fault) state

/-- Assigns a value to a variable. -/
def assign (naming : Naming) (state : State) (name : Text) (value : Value) : Except Fault State :=
  (value.fit (naming.kind name)).map fun value => { state with store := state.store.set name value }

/-- Shows a value on a line of its own. -/
def print (state : State) (value : Value) : State :=
  { state with shown := state.shown ++ value.toText.line.bytes }

/-- Asks for an integer for a variable. -/
def ask (naming : Naming) (state : State) (name : Text) : Except Failure Int64 × State :=
  let (shown, answer, feed) := state.feed.ask (Exec.prompt (naming.spelling name))
  (answer, { state with feed, shown := state.shown ++ shown })

end State

/-- How far a counter has to go: to the limit, or down to it. -/
def distance (down : Bool) (counter limit : Value) : Except Fault Value :=
  if down then Operator.sub.apply counter limit else Operator.sub.apply limit counter

/-- The next value of a counter. -/
def advanced (down : Bool) (counter : Value) : Except Fault Value :=
  Operator.add.apply counter (.int (if down then -1 else 1))

/-- What a loop does again: a whole statement, or the next round of a `FOR` whose limit has been found. -/
inductive Repetition where
  | statement (s : Stmt)
  | count (counter : Text) (limit : Value) (down : Bool) (body : Stmt)

section Statements

variable (naming : Naming) (again : Repetition → State → Course State)

/-- A round of a `FOR`, if the counter is not past the limit. -/
def round (counter : Text) (limit : Value) (down : Bool) (body : Stmt) (perform : State → Course State)
    (state : State) : Course State := do
  let left ← state.attempt (distance down (state.store counter) limit)
  if left.signum < 0 then return state
  else
    let after ← perform state
    let next ← after.attempt (advanced down (after.store counter))
    let counted ← after.attempt (after.assign naming counter next)
    again (.count counter limit down body) counted

/-- What comes of a statement. What a loop does after its first round is given. -/
def Stmt.run : Stmt → State → Course State
  | empty, state => return state
  | sequence first second, state => do second.run (← first.run state)
  | assignment target source, state => do
    let value ← state.attempt (source.eval naming.meaning state.store)
    state.attempt (state.assign naming target value)
  | ifThen test body, state => do
    if ← state.attempt (test.eval naming.meaning state.store) then body.run state else return state
  | ifElse test body other, state => do
    if ← state.attempt (test.eval naming.meaning state.store) then body.run state else other.run state
  | whileLoop test body, state => do
    if ← state.attempt (test.eval naming.meaning state.store) then
      again (.statement (whileLoop test body)) (← body.run state)
    else return state
  | repeatLoop body test, state => do
    let after ← body.run state
    if ← after.attempt (test.eval naming.meaning after.store) then return after
    else again (.statement (repeatLoop body test)) after
  | forLoop counter start limit down body, state => do
    let first ← state.attempt (start.eval naming.meaning state.store)
    let last ← state.attempt (limit.eval naming.meaning state.store)
    let after ← state.attempt (state.assign naming counter first)
    round naming again counter last down body body.run after
  | writeln e, state => do return state.print (← state.attempt (e.eval naming.meaning state.store))
  | readln target, state =>
    match state.ask naming target with
    | (.ok n, asked) => asked.attempt (asked.assign naming target (.int n))
    | (.error failure, asked) => .ends (.unanswered failure) asked

end Statements

/-- What comes of a repetition that takes at most some rounds. -/
def Repetition.run (naming : Naming) : (rounds : Nat) → Repetition → State → Course State
  | 0, _, _ => .unfinished
  | rounds + 1, statement s, state => s.run naming (run naming rounds) state
  | rounds + 1, count counter limit down body, state =>
    round naming (run naming rounds) counter limit down body (body.run naming (run naming rounds)) state

/-! ## Programs -/

/-- The kind that a variable was declared with last; without a declaration it is an integer. -/
def Program.kindOf (p : Program) (name : Text) : Kind :=
  ((p.declarations.reverse.find? fun entry => entry.1.SameName name).map (·.2)).getD .integer

/-- A name as it was written first by a token of the given kind. -/
def firstSpelling (tokens : List Token) (kind : TokenKind) (name : Text) : Text :=
  ((tokens.find? fun t => t.kind = kind ∧ t.text.SameName name).map (·.text)).getD name

/-- The names of a program that was read from some tokens. Variables are shown as they were written first,
and a text literal means what its first spelling says. -/
def Program.naming (p : Program) (tokens : List Token) : Naming where
  kind := p.kindOf
  spelling := firstSpelling tokens .identifier
  meaning name := literalValue (firstSpelling tokens .textLiteral name)

/-- The state that a program starts in. -/
def Program.start (p : Program) (feed : Feed) : State := ⟨fun name => .zero (p.kindOf name), feed, []⟩

/-- What comes of a program: it ends, or it is unfinished. -/
def Program.run (p : Program) (naming : Naming) (feed : Feed) (rounds : Nat) : Course Empty := do
  let state ← p.body.run naming (Repetition.run naming rounds) (p.start feed)
  .ends .finished state

/-! ## More rounds -/

/-- A course says no more than another one. -/
inductive Course.Below {α : Type} : Course α → Course α → Prop
  | unfinished (course : Course α) : Below .unfinished course
  | refl (course : Course α) : Below course course

theorem Course.Below.bind {α β : Type} {first second : Course α} {f g : α → Course β}
    (below : first.Below second) (later : ∀ result, (f result).Below (g result)) :
    (first >>= f).Below (second >>= g) := by
  cases below with
  | unfinished => exact .unfinished _
  | refl =>
    cases first with
    | goesOn result => exact later result
    | ends => exact .refl _
    | unfinished => exact .refl _

section Rounds

variable {naming : Naming} {again more : Repetition → State → Course State}

theorem round_below (below : ∀ repetition state, (again repetition state).Below (more repetition state))
    {perform performMore : State → Course State}
    (performs : ∀ state, (perform state).Below (performMore state)) (counter : Text) (limit : Value)
    (down : Bool) (body : Stmt) (state : State) :
    (round naming again counter limit down body perform state).Below
      (round naming more counter limit down body performMore state) := by
  apply (Course.Below.refl _).bind
  intro left
  split
  · exact .refl _
  · apply (performs state).bind
    intro after
    apply (Course.Below.refl _).bind
    intro next
    apply (Course.Below.refl _).bind
    exact below _

theorem Stmt.run_below (below : ∀ repetition state, (again repetition state).Below (more repetition state))
    (s : Stmt) (state : State) : (s.run naming again state).Below (s.run naming more state) := by
  induction s generalizing state with
  | empty | assignment | writeln | readln => exact .refl _
  | sequence _ _ ih ih' => exact (ih state).bind ih'
  | ifThen test body ih =>
    apply (Course.Below.refl _).bind
    intro holds
    split
    · exact ih state
    · exact .refl _
  | ifElse test body other ih ih' =>
    apply (Course.Below.refl _).bind
    intro holds
    split
    · exact ih state
    · exact ih' state
  | whileLoop test body ih =>
    apply (Course.Below.refl _).bind
    intro holds
    split
    · exact (ih state).bind (below _)
    · exact .refl _
  | repeatLoop body test ih =>
    apply (ih state).bind
    intro after
    apply (Course.Below.refl _).bind
    intro holds
    split
    · exact .refl _
    · exact below _ after
  | forLoop counter start limit down body ih =>
    apply (Course.Below.refl _).bind
    intro first
    apply (Course.Below.refl _).bind
    intro last
    apply (Course.Below.refl _).bind
    exact round_below below ih counter last down body

theorem Repetition.run_below (rounds : Nat) : ∀ (repetition : Repetition) (state : State),
    (repetition.run naming rounds state).Below (repetition.run naming (rounds + 1) state) := by
  induction rounds with
  | zero => exact fun _ _ => .unfinished _
  | succ rounds ih =>
    intro repetition state
    cases repetition with
    | statement s => exact s.run_below ih state
    | count counter limit down body =>
      exact round_below ih (fun state => body.run_below ih state) counter limit down body state

end Rounds

/-- A program that ends ends in the same way if it is given more rounds. -/
theorem Program.run_of_le {p : Program} {naming : Naming} {feed : Feed} {rounds more : Nat}
    {ending : Ending} {state : State} (ends : p.run naming feed rounds = .ends ending state)
    (le : rounds ≤ more) : p.run naming feed more = .ends ending state := by
  induction le with
  | refl => exact ends
  | @step more _ ih =>
    have below : (p.run naming feed more).Below (p.run naming feed (more + 1)) :=
      (Stmt.run_below (Repetition.run_below more) p.body _).bind fun _ => .refl _
    rw [ih] at below
    generalize p.run naming feed (more + 1) = later at below ⊢
    cases below
    rfl

end Syntax

end MiniPascal
