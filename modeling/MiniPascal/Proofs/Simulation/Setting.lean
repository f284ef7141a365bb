import MiniPascal.Proofs.Compiler.Cells
import MiniPascal.Proofs.Machine.Calculation
import MiniPascal.Proofs.Machine.Delivery

/-! # The memory of a machine and the state of a program

The memory represents a store when the cell of every variable holds the variable's value and the cells
of the literals and of the compiler's own units hold theirs. The other cells are temporaries. Code
changes only the temporaries above a number, so what is in the ones below stays; together with the
variables and the constants these are the settled cells.
-/

namespace MiniPascal

open Syntax

/-- A cell of a memory holds a value. -/
def SymbolTable.Holds (symbols : SymbolTable) (i : Nat) (value : Value) : Prop :=
  ∃ cell, symbols.cells[i]? = some cell ∧ cell.value = value

namespace SymbolTable

variable {symbols : SymbolTable} {i j : Nat} {x y : Value}

theorem Holds.unique (first : symbols.Holds i x) (second : symbols.Holds i y) : x = y := by
  obtain ⟨cell, here, rfl⟩ := first
  obtain ⟨other, again, rfl⟩ := second
  rw [here] at again
  cases again
  rfl

theorem Holds.value (holds : symbols.Holds i x) : symbols.value (i : Int) = .ok x := by
  obtain ⟨cell, here, rfl⟩ := holds
  exact value_of_cell here

theorem holds_modify {cell : Cell} (here : symbols.cells[i]? = some cell) (usage : Usage) :
    (symbols.modify i usage x).Holds i x := by
  refine ⟨{ cell with usage, value := x }, ?_, rfl⟩
  rw [cells_modify, if_pos rfl, here]
  rfl

theorem Holds.modify (holds : symbols.Holds j y) (other : i ≠ j) (usage : Usage) :
    (symbols.modify i usage x).Holds j y := by
  obtain ⟨cell, here, same⟩ := holds
  refine ⟨cell, ?_, same⟩
  rw [cells_modify, if_neg other]
  exact here

/-- What is held has the kind that a table of the same shape tells. -/
theorem Holds.kindAt {table : SymbolTable} (holds : symbols.Holds i x) (alike : table.Alike symbols) :
    table.kindAt i = some x.kind := by
  obtain ⟨cell, here, rfl⟩ := holds
  rw [← alike.kindAt, SymbolTable.kindAt, here]
  rfl

end SymbolTable

/-- What stays the same while a program runs. -/
structure Setting where
  table : SymbolTable
  quads : List Quad
  /-- The tokens that the program was read from. -/
  tokens : List Token
  naming : Naming
  /-- The console before the run. -/
  console : Console

namespace Setting

/-- A name whose cell is never written: a literal, or one of the compiler's units. -/
inductive Constant (S : Setting) : Text → Value → Prop
  | number {name : Text}
      (among : Among S.tokens .integerLiteral name ∨ Among S.tokens .realLiteral name) :
      Constant S name (S.naming.meaning name)
  | text {name : Text} (among : Among S.tokens .textLiteral name) : Constant S name (S.naming.meaning name)
  | unit {n : Int64} (unit : n = 1 ∨ n = -1) : Constant S (.ofInt n.toInt) (.int n)

/-- What the compiler has seen to. -/
structure Sound (S : Setting) : Prop where
  wellFormed : S.table.WellFormed
  words : ∀ {name}, Among S.tokens .identifier name → name.IsWord
  constants : ∀ {name value}, S.Constant name value →
    ¬ name.IsWord ∧ ∀ n, ¬ name.SameName (Rule.temporaryName n)
  kinds : ∀ {name i}, Among S.tokens .identifier name → S.table.lookup? name = some i →
    S.table.kindAt i = some (S.naming.kind name)
  names : ∀ {name i}, Among S.tokens .identifier name → S.table.lookup? name = some i →
    S.table.name i = .ok (S.naming.spelling name)
  steady : S.console.Steady

variable {S : Setting}

theorem Sound.variable_ne_temporary (sound : S.Sound) {name : Text} {i c k : Nat}
    (among : Among S.tokens .identifier name) (found : S.table.lookup? name = some i)
    (made : S.table.lookup? (Rule.temporaryName k) = some c) : c ≠ i := by
  rintro rfl
  have same := sound.wellFormed.sameName found made
  exact not_isWord_temporary k ((sound.words among).congr same)

theorem Sound.constant_ne_temporary (sound : S.Sound) {name : Text} {value : Value} {i c k : Nat}
    (constant : S.Constant name value) (found : S.table.lookup? name = some i)
    (made : S.table.lookup? (Rule.temporaryName k) = some c) : c ≠ i := by
  rintro rfl
  exact (sound.constants constant).2 k (sound.wellFormed.sameName found made)

theorem Sound.constant_ne_variable (sound : S.Sound) {name word : Text} {value : Value} {i c : Nat}
    (constant : S.Constant name value) (found : S.table.lookup? name = some i)
    (among : Among S.tokens .identifier word) (there : S.table.lookup? word = some c) : c ≠ i := by
  rintro rfl
  have same := sound.wellFormed.sameName there found
  exact (sound.constants constant).1 ((sound.words among).congr same)

theorem Sound.temporary_ne (sound : S.Sound) {k n c i : Nat} (other : k ≠ n)
    (made : S.table.lookup? (Rule.temporaryName k) = some c)
    (found : S.table.lookup? (Rule.temporaryName n) = some i) : c ≠ i := by
  rintro rfl
  exact other (Rule.temporaryName_inj (sound.wellFormed.sameName made found))

/-! ## Representing a store -/

/-- A memory represents a store. -/
structure Represents (S : Setting) (store : Store) (symbols : SymbolTable) : Prop where
  alike : S.table.Alike symbols
  words : ∀ {name i}, Among S.tokens .identifier name → S.table.lookup? name = some i →
    symbols.Holds i (store name)
  constants : ∀ {name value i}, S.Constant name value → S.table.lookup? name = some i →
    symbols.Holds i value

/-- The temporaries up to a number keep what they hold. -/
def Keeps (S : Setting) (n : Nat) (before after : SymbolTable) : Prop :=
  ∀ k i value, k ≤ n → S.table.lookup? (Rule.temporaryName k) = some i →
    before.Holds i value → after.Holds i value

theorem Keeps.refl (n : Nat) (symbols : SymbolTable) : S.Keeps n symbols symbols :=
  fun _ _ _ _ _ holds => holds

theorem Keeps.trans {n : Nat} {first second third : SymbolTable} (left : S.Keeps n first second)
    (right : S.Keeps n second third) : S.Keeps n first third :=
  fun k i value le made holds => right k i value le made (left k i value le made holds)

theorem Keeps.mono {n k : Nat} {before after : SymbolTable} (keeps : S.Keeps n before after)
    (le : k ≤ n) : S.Keeps k before after :=
  fun k i value less made holds => keeps k i value (Nat.le_trans less le) made holds

/-- A cell that code with temporaries above `n` does not change, unless it assigns one of some variables. -/
inductive Settled (S : Setting) (n : Nat) (words : Text → Prop) (i : Nat) : Prop
  | word {name : Text} (among : Among S.tokens .identifier name)
      (found : S.table.lookup? name = some i) (member : words name)
  | constant {name : Text} {value : Value} (constant : S.Constant name value)
      (found : S.table.lookup? name = some i)
  | temporary {k : Nat} (le : k ≤ n) (made : S.table.lookup? (Rule.temporaryName k) = some i)

theorem Settled.holds {n i : Nat} {words : Text → Prop} {store later : Store}
    {before after : SymbolTable} {value : Value} (settled : S.Settled n words i)
    (first : S.Represents store before) (second : S.Represents later after)
    (same : ∀ name, words name → later name = store name) (keeps : S.Keeps n before after)
    (holds : before.Holds i value) : after.Holds i value := by
  cases settled with
  | @word name among found member =>
    rw [holds.unique (first.words among found), ← same name member]
    exact second.words among found
  | constant constant found =>
    rw [holds.unique (first.constants constant found)]
    exact second.constants constant found
  | @temporary k le made => exact keeps k i value le made holds

variable {store : Store} {symbols : SymbolTable}

/-- A temporary takes another value of its kind. -/
theorem Represents.temporary (represents : S.Represents store symbols) (sound : S.Sound) {k c : Nat}
    {kind : Kind} (made : S.table.Temporary k kind c) {value : Value}
    (same : value.kind = (Value.zero kind).kind) : ∃ after, symbols.stored c value = .ok after ∧
      S.Represents store after ∧ after.Holds c value ∧ ∀ n < k, S.Keeps n symbols after := by
  obtain ⟨cell, here, shape⟩ := represents.alike.stays made.cell
  have kind : cell.value.kind = (Value.zero kind).kind := congrArg (fun shape => shape.2.2) shape
  have fits : value.kind = cell.value.kind := same.trans kind.symm
  refine ⟨_, SymbolTable.stored_same here fits, ?_, SymbolTable.holds_modify here _, ?_⟩
  · constructor
    · exact represents.alike.trans (.modify here fits)
    · intro name i among found
      exact (represents.words among found).modify
        (sound.variable_ne_temporary among found made.lookup) _
    · intro name held i constant found
      exact (represents.constants constant found).modify
        (sound.constant_ne_temporary constant found made.lookup) _
  · intro n less m j held le there holds
    exact holds.modify (sound.temporary_ne (by omega) made.lookup there) _

/-- What a variable holds is of its kind, so it can be assigned again. -/
theorem Represents.fit (represents : S.Represents store symbols) (sound : S.Sound) {name : Text} {c : Nat}
    (among : Among S.tokens .identifier name) (found : S.table.lookup? name = some c) :
    (store name).fit (S.naming.kind name) = .ok (store name) := by
  have kind := (represents.words among found).kindAt represents.alike
  rw [sound.kinds among found, Option.some.injEq] at kind
  rw [kind]
  cases store name <;> rfl

/-- Spellings of one name have one value. -/
theorem Represents.store_eq (represents : S.Represents store symbols) {name other : Text} {c : Nat}
    (among : Among S.tokens .identifier name) (among' : Among S.tokens .identifier other)
    (found : S.table.lookup? name = some c) (same : name.SameName other) : store other = store name := by
  have found' := (S.table.lookup_congr same).symm.trans found
  exact (represents.words among' found').unique (represents.words among found)

/-- A variable is assigned what it holds. -/
theorem Represents.assign_same {state : State} (represents : S.Represents state.store symbols)
    (sound : S.Sound) {name : Text} {c : Nat} (among : Among S.tokens .identifier name)
    (found : S.table.lookup? name = some c) :
    let after := { state with store := state.store.set name (state.store name) }
    state.assign S.naming name (state.store name) = .ok after ∧ after.store name = state.store name ∧
      S.Represents after.store symbols := by
  refine ⟨?_, if_pos rfl, ?_⟩
  · rw [State.assign, represents.fit sound among found]
    rfl
  · refine ⟨represents.alike, fun {other i} among' found' => ?_, represents.constants⟩
    change symbols.Holds i (state.store.set name (state.store name) other)
    unfold Store.set
    split
    · rename_i same
      rw [← represents.store_eq among among' found same]
      exact represents.words among' found'
    · exact represents.words among' found'

/-- A variable has been assigned a value. -/
structure Assigns (S : Setting) (name : Text) (state : State) (symbols : SymbolTable) (after : State)
    (memory : SymbolTable) : Prop where
  feed : after.feed = state.feed
  shown : after.shown = state.shown
  others : ∀ other, ¬ name.SameName other → after.store other = state.store other
  represents : S.Represents after.store memory
  keeps : ∀ n, S.Keeps n symbols memory

/-- A variable is assigned a value, which its kind may not allow. -/
theorem Represents.assign {state : State} (represents : S.Represents state.store symbols)
    (sound : S.Sound) {name : Text} {c : Nat} (among : Among S.tokens .identifier name)
    (found : S.table.lookup? name = some c) (value : Value) :
    Agree (S.Assigns name state symbols) (state.assign S.naming name value)
      (symbols.stored c value) := by
  have held := represents.words among found
  obtain ⟨cell, here, same⟩ := represents.words among found
  have kind : cell.value.kind = S.naming.kind name := by
    have told := held.kindAt represents.alike
    rw [sound.kinds among found, ← same] at told
    exact (Option.some.inj told).symm
  have agrees := fit_agrees here value
  rw [kind] at agrees
  unfold State.assign
  cases fits : value.fit (S.naming.kind name) with
  | error fault =>
    rw [fits] at agrees
    generalize symbols.stored c value = result at agrees ⊢
    cases agrees with
    | error means => exact .error means
  | ok fitted =>
    rw [fits] at agrees
    generalize symbols.stored c value = result at agrees ⊢
    cases agrees with
    | ok stores =>
      subst stores
      refine .ok ⟨rfl, rfl, fun other apart => if_neg apart, ⟨?_, ?_, ?_⟩, ?_⟩
      · exact represents.alike.trans (.modify here ((kind_of_fit fits).trans kind.symm))
      · intro other i among' found'
        change (symbols.modify c cell.usage fitted).Holds i (state.store.set name fitted other)
        unfold Store.set
        split
        · rename_i same
          rw [SymbolTable.lookup_congr _ same, found'] at found
          cases found
          exact SymbolTable.holds_modify here _
        · rename_i apart
          refine (represents.words among' found').modify ?_ _
          rintro rfl
          exact apart (sound.wellFormed.sameName found found')
      · intro other held i constant found'
        exact (represents.constants constant found').modify
          (sound.constant_ne_variable constant found' among found) _
      · intro n k i held le made holds
        exact holds.modify (sound.variable_ne_temporary among found made).symm _

end Setting

end MiniPascal
