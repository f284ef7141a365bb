import MiniPascal.Proofs.Compiler.Moves

/-! # Where the symbols come from

Every cell of a compilation's table stands for the first item with its name among those read so far,
or for a constant or a temporary that the compiler made. The program name and the declarations then
decide on usage and kind. A token with a symbol has its cell as soon as it is looked at, unless the
table is full, and no name is ever taken that the next temporaries will need.
-/

namespace MiniPascal

/-- What the names of a program stand for: the name of the program, and the variables with their
kinds. -/
structure Scope where
  program : Option Text := none
  declared : List (Text × Kind) := []

namespace Scope

/-- The kind that a name was declared with last. -/
def kind? (scope : Scope) (name : Text) : Option Kind :=
  (scope.declared.reverse.find? fun entry => entry.1.SameName name).map (·.2)

/-- Whether a name is that of the program. -/
def isProgram (scope : Scope) (name : Text) : Bool :=
  scope.program.any fun program => program.SameName name

/-- A symbol as the scope changes it. -/
def adapt (scope : Scope) (cell : Cell) : Cell :=
  match scope.kind? cell.name with
  | some kind => { cell with usage := .var, value := .zero kind }
  | none => if scope.isProgram cell.name then { cell with usage := .program } else cell

/-- A scope with more declarations. -/
def extend (scope : Scope) (declared : List (Text × Kind)) : Scope :=
  { scope with declared := scope.declared ++ declared }

@[simp] theorem extend_nil (scope : Scope) : scope.extend [] = scope := by simp [extend]

theorem extend_append (scope : Scope) (first second : List (Text × Kind)) :
    scope.extend (first ++ second) = (scope.extend first).extend second := by
  simp [extend]

@[simp] theorem name_adapt (scope : Scope) (cell : Cell) : (scope.adapt cell).name = cell.name := by
  unfold adapt
  split
  · rfl
  · split <;> rfl

theorem kind?_extend (scope : Scope) (name : Text) (kind : Kind) (other : Text) :
    (scope.extend [(name, kind)]).kind? other =
      if name.SameName other then some kind else scope.kind? other := by
  unfold extend kind?
  rw [List.reverse_append, List.reverse_singleton, List.singleton_append, List.find?_cons]
  by_cases same : name.SameName other
  · simp [same]
  · simp [same]

theorem kind?_eq_none {scope : Scope} {name : Text} :
    scope.kind? name = none ↔ ∀ entry ∈ scope.declared, ¬ entry.1.SameName name := by
  simp [kind?]

theorem kind?_congr (scope : Scope) {first second : Text} (same : first.SameName second) :
    scope.kind? first = scope.kind? second := by
  have alike : (fun entry : Text × Kind => decide (entry.1.SameName first)) =
      fun entry => decide (entry.1.SameName second) :=
    funext fun _ => decide_eq_decide.mpr ⟨fun left => left.trans same, fun left => left.trans same.symm⟩
  unfold kind?
  rw [alike]

theorem isProgram_congr (scope : Scope) {first second : Text} (same : first.SameName second) :
    scope.isProgram first = scope.isProgram second := by
  have alike : (fun program : Text => decide (program.SameName first)) =
      fun program => decide (program.SameName second) :=
    funext fun _ => decide_eq_decide.mpr ⟨fun left => left.trans same, fun left => left.trans same.symm⟩
  unfold isProgram
  rw [alike]

theorem usage_adapt {scope : Scope} {cell : Cell} (other : cell.usage ≠ .program) :
    (scope.adapt cell).usage = .program ↔
      scope.isProgram cell.name = true ∧ scope.kind? cell.name = none := by
  unfold adapt
  cases kind : scope.kind? cell.name with
  | some kind => simp
  | none =>
    cases program : scope.isProgram cell.name with
    | true => simp
    | false => simpa using other

end Scope

/-- The first symbol that some items introduce under a name. -/
def firstCell? (items : List Scanned) (name : Text) : Option Cell :=
  (items.filterMap Scanned.cell?).find? fun cell => cell.name.SameName name

theorem firstCell?_append {items : List Scanned} {name : Text} {cell : Cell}
    (first : firstCell? items name = some cell) (more : List Scanned) :
    firstCell? (items ++ more) name = some cell := by
  unfold firstCell? at *
  rw [List.filterMap_append, List.find?_append, first]
  rfl

theorem firstCell?_new {items : List Scanned} {item : Scanned} {cell : Cell}
    (here : item.cell? = some cell)
    (new : ∀ before ∈ items, ∀ other, before.cell? = some other → ¬ other.name.SameName cell.name) :
    firstCell? (items ++ [item]) cell.name = some cell := by
  unfold firstCell?
  have none : (items.filterMap Scanned.cell?).find? (fun other => other.name.SameName cell.name) =
      none := by
    rw [List.find?_eq_none]
    intro other member
    obtain ⟨before, member, registers⟩ := List.mem_filterMap.mp member
    simpa using new before member other registers
  rw [List.filterMap_append, List.find?_append, none]
  simp [here, Text.SameName]

/-- A symbol before the scope changes it: the first one of its name among the items read, or one of
the compiler's own. -/
inductive Base (before : List Scanned) (temporaries : Nat) (cell : Cell) : Prop
  | scanned (first : firstCell? before cell.name = some cell)
  | unit (n : Int64) (unit : n = 1 ∨ n = -1) (same : cell = ⟨.ofInt n.toInt, .constant, .int n⟩)
  | temporary (n : Nat) (kind : Kind) (made : n ≤ temporaries)
      (same : cell = ⟨Rule.temporaryName n, .constant, .zero kind⟩)

theorem Base.mono {before : List Scanned} {temporaries more : Nat} {cell : Cell}
    (base : Base before temporaries cell) (items : List Scanned) (le : temporaries ≤ more) :
    Base (before ++ items) more cell := by
  cases base with
  | scanned first => exact .scanned (firstCell?_append first items)
  | unit n unit same => exact .unit n unit same
  | temporary n kind made same => exact .temporary n kind (Nat.le_trans made le) same

namespace Session

/-- The books of a session that has read the items `before`. -/
structure Books (scope : Scope) (before : List Scanned) (s : Session) : Prop where
  valid : s.Valid
  look : s.look.kind ≠ .endOfInput → ∃ item ∈ before, s.look = item.token
  entered : ∀ item ∈ before, ∀ cell, item.cell? = some cell →
    (∃ i, s.symbols.lookup? cell.name = some i) ∨ s.NoCells
  cells : ∀ (i : Nat) cell, s.symbols.cells[i]? = some cell →
    ∃ base, Base before s.temporaries base ∧ cell = scope.adapt base
  program : ∀ name, scope.program = some name → ∃ i, s.symbols.lookup? name = some i
  declared : ∀ entry ∈ scope.declared, ∃ i, s.symbols.lookup? entry.1 = some i
  fresh : ∀ n, s.temporaries < n → s.symbols.lookup? (Rule.temporaryName n) = none

/-- The items of a program text: those read are in the books, and all are as the scanner makes
them. -/
structure Orderly (quote : Char) (items : List Scanned) (scope : Scope) (s : Session) : Prop where
  proper : ∀ item ∈ items, ∀ found, item.lexeme = some found → found.Proper quote
  read : ∃ before, items = before ++ s.unread ∧ s.Books scope before

variable {quote : Char} {items before : List Scanned} {scope : Scope} {s t : Session}

/-- A name that is new to the table is new to the scope. -/
theorem Books.adapt_new (books : s.Books scope before) {cell : Cell}
    (new : s.symbols.lookup? cell.name = none) : scope.adapt cell = cell := by
  have undeclared : scope.kind? cell.name = none := by
    rw [Scope.kind?_eq_none]
    intro entry member same
    obtain ⟨i, found⟩ := books.declared entry member
    rw [s.symbols.lookup_congr same, new] at found
    cases found
  have other : scope.isProgram cell.name = false := by
    unfold Scope.isProgram
    cases named : scope.program with
    | none => rfl
    | some name =>
      obtain ⟨i, found⟩ := books.program name named
      simp only [Option.any_some, decide_eq_false_iff_not]
      intro same
      rw [s.symbols.lookup_congr same, new] at found
      cases found
  simp [Scope.adapt, undeclared, other]

/-- The table stays as it is or gets a cell for a name that is new. -/
inductive Grown (before : List Scanned) (s t : Session) : Prop
  | same (symbols : t.symbols = s.symbols)
  | inserted (cell : Cell) (base : Base before s.temporaries cell)
      (new : s.symbols.lookup? cell.name = none)
      (later : ∀ n, s.temporaries < n → ¬ (Rule.temporaryName n).SameName cell.name)
      (symbols : t.symbols = s.symbols.insert cell)

theorem Grown.extends (grown : Grown before s t) : s.symbols.Extends t.symbols := by
  cases grown with
  | same symbols => exact symbols ▸ .refl _
  | inserted cell _ new _ symbols => exact symbols ▸ SymbolTable.extends_insert new

/-- The books are kept when more items are read and at most one cell is added. -/
theorem Books.grow (books : s.Books scope before) (more : List Scanned)
    (grown : Grown (before ++ more) s t) (temporaries : t.temporaries = s.temporaries)
    (look : t.look.kind ≠ .endOfInput → ∃ item ∈ before ++ more, t.look = item.token)
    (entered : ∀ item ∈ more, ∀ cell, item.cell? = some cell →
      (∃ i, t.symbols.lookup? cell.name = some i) ∨ t.NoCells)
    (valid : t.Valid) (full : s.NoCells → t.NoCells) : t.Books scope (before ++ more) := by
  have extend := grown.extends
  refine ⟨valid, look, fun item member cell here => ?_, fun i cell here => ?_, fun name named => ?_,
    fun entry member => ?_, fun n le => ?_⟩
  · obtain member | member := List.mem_append.mp member
    · obtain ⟨i, found⟩ | noCells := books.entered item member cell here
      · exact .inl ⟨i, extend.lookup _ _ found⟩
      · exact .inr (full noCells)
    · exact entered item member cell here
  · have old (here : s.symbols.cells[i]? = some cell) :
        ∃ base, Base (before ++ more) t.temporaries base ∧ cell = scope.adapt base := by
      obtain ⟨base, origin, same⟩ := books.cells i cell here
      exact ⟨base, origin.mono _ (Nat.le_of_eq temporaries.symm), same⟩
    cases grown with
    | same symbols => exact old (symbols ▸ here)
    | inserted added base new _ symbols =>
      rw [symbols, SymbolTable.cells_insert] at here
      split at here
      · cases here
        exact ⟨cell, temporaries ▸ base, (books.adapt_new new).symm⟩
      · exact old here
  · obtain ⟨i, found⟩ := books.program name named
    exact ⟨i, extend.lookup _ _ found⟩
  · obtain ⟨i, found⟩ := books.declared entry member
    exact ⟨i, extend.lookup _ _ found⟩
  · rw [temporaries] at le
    cases grown with
    | same symbols => exact symbols ▸ books.fresh n le
    | inserted cell _ _ later symbols =>
      rw [symbols, SymbolTable.lookup_insert, if_neg (later n le)]
      exact books.fresh n le

theorem Valid.advance (valid : s.Valid) : s.advance.Valid := by
  refine ⟨?_, valid.quads, valid.words.advance⟩
  obtain same | ⟨_, _, cell, _, _, new, room, added⟩ := s.symbols_advance
  · exact same ▸ valid.symbols
  · exact added ▸ valid.symbols.insert new room

theorem NoCells.advance (full : s.NoCells) : s.advance.NoCells := by
  obtain same | ⟨_, _, _, _, _, _, room, _⟩ := s.symbols_advance
  · unfold NoCells
    rwa [same]
  · exact absurd full room

/-- Reading the next item. -/
theorem Books.advance (books : s.Books scope before) {item : Scanned} {rest : List Scanned}
    (unread : s.unread = item :: rest)
    (proper : ∀ found, item.lexeme = some found → found.Proper quote) :
    s.advance.Books scope (before ++ [item]) := by
  have token : s.advance.look = item.token := (Lexing.next_cons unread).1
  refine books.grow [item] ?_ rfl (fun _ => ⟨item, by simp, token⟩) ?_ books.valid.advance
    NoCells.advance
  · obtain same | ⟨item', _, cell, here, registers, new, room, added⟩ := s.symbols_advance
    · exact .same same
    · obtain ⟨rfl, _⟩ := List.cons.inj (unread.symm.trans here)
      refine .inserted cell (.scanned ?_) new ?_ added
      · refine firstCell?_new registers fun earlier member other here same => ?_
        -- an earlier item of that name would have its cell, or the table would be full
        obtain ⟨i, found⟩ | noCells := books.entered earlier member other here
        · rw [s.symbols.lookup_congr same, new] at found
          cases found
        · exact room noCells
      · intro n _ same
        obtain ⟨found, lexeme, here⟩ := Option.bind_eq_some_iff.mp registers
        obtain ⟨registration, registered, rfl⟩ := Option.map_eq_some_iff.mp here
        exact (proper found lexeme).not_temporary registered n same.symm
  · intro other member cell registers
    obtain rfl := List.mem_singleton.mp member
    have symbols := (Lexing.next_cons unread).2.2.1
    rw [registers] at symbols
    change s.advance.symbols = (s.symbols.add cell.name cell.usage cell.value).2 at symbols
    obtain ⟨i, found, added⟩ | ⟨_, noCells, added⟩ | ⟨_, _, added⟩ :=
      s.symbols.add_cases cell.name cell.usage cell.value
    · rw [added] at symbols
      exact .inl ⟨i, symbols ▸ found⟩
    · exact .inr (NoCells.advance noCells)
    · rw [added] at symbols
      refine .inl ⟨s.symbols.size, ?_⟩
      rw [symbols, SymbolTable.lookup_insert]
      exact if_pos (Text.SameName.refl _)

theorem Books.mint (books : s.Books scope before) :
    Books scope before { s with temporaries := s.temporaries + 1 } := by
  have step : Moves False s { s with temporaries := s.temporaries + 1 } := .single (.mint s)
  refine ⟨step.valid books.valid, books.look, books.entered, ?_, books.program,
    books.declared, fun n le => books.fresh n (Nat.lt_of_succ_lt le)⟩
  intro i cell here
  obtain ⟨base, origin, same⟩ := books.cells i cell here
  have origin := origin.mono [] (Nat.le_succ s.temporaries)
  rw [List.append_nil] at origin
  exact ⟨base, origin, same⟩

theorem Own.later {name : Text} {value : Value} (own : s.Own name value) (n : Nat)
    (le : s.temporaries < n) : ¬ (Rule.temporaryName n).SameName name := by
  obtain ⟨m, unit, rfl, _⟩ | ⟨rfl, _⟩ := own
  · intro same
    refine Rule.temporaryName_ne (m := m.toInt) ?_ same.symm
    obtain rfl | rfl := unit
    · exact .inl rfl
    · exact .inr rfl
  · intro same
    have := Rule.temporaryName_inj same
    omega

theorem Own.base {name : Text} {value : Value} (own : s.Own name value) (before : List Scanned) :
    Base before s.temporaries ⟨name, .constant, value⟩ := by
  obtain ⟨n, unit, rfl, rfl⟩ | ⟨rfl, kind, rfl⟩ := own
  · exact .unit n unit rfl
  · exact .temporary _ kind (Nat.le_refl _) rfl

/-- The books of a session with the same tokens and at most one cell more. -/
theorem Orderly.grow (orderly : s.Orderly quote items scope)
    (grown : ∀ before, Grown before s t) (look : t.look = s.look) (unread : t.unread = s.unread)
    (temporaries : t.temporaries = s.temporaries) (moves : Moves False s t) :
    t.Orderly quote items scope := by
  obtain ⟨proper, before, split, books⟩ := orderly
  have kept := books.grow (t := t) [] (grown _) temporaries
    (by rw [look, List.append_nil]; exact books.look) (fun _ member => absurd member List.not_mem_nil)
    (moves.valid books.valid) (moves.noCells books.valid)
  rw [List.append_nil] at kept
  rw [← unread] at split
  exact ⟨proper, before, split, kept⟩

theorem Orderly.advance (orderly : s.Orderly quote items scope) :
    s.advance.Orderly quote items scope := by
  obtain ⟨proper, before, split, books⟩ := orderly
  cases unread : s.unread with
  | nil =>
    have step : s.advance = { s with look := .endOfInput } := by
      simp [Session.advance, Lexing.next_nil unread]
    have kept := books.grow (t := s.advance) [] (.same (by rw [step])) (by rw [step])
      (fun more => absurd (by rw [step]; rfl) more) (fun _ member => absurd member List.not_mem_nil)
      books.valid.advance NoCells.advance
    rw [List.append_nil] at kept
    have split : items = before ++ s.advance.unread := by rw [unread_advance, split, unread]; rfl
    exact ⟨proper, before, split, kept⟩
  | cons item rest =>
    have kept := books.advance unread (proper item (by simp [split, unread]))
    have split : items = (before ++ [item]) ++ s.advance.unread := by
      rw [unread_advance, split, unread]
      simp
    exact ⟨proper, before ++ [item], split, kept⟩

/-- Every move outside declarations keeps the books. -/
theorem Move.orderly (move : Move False s t) (orderly : s.Orderly quote items scope) :
    t.Orderly quote items scope := by
  have moves : Moves False s t := .single move
  cases move with
  | observe | fail | exhaust | emit | patch =>
    exact orderly.grow (fun _ => .same rfl) rfl rfl rfl moves
  | symbol name value own new room =>
    exact orderly.grow (fun _ => .inserted _ (own.base _) new own.later rfl) rfl rfl rfl moves
  | advance => exact orderly.advance
  | mint =>
    obtain ⟨proper, before, split, books⟩ := orderly
    exact ⟨proper, before, split, books.mint⟩
  | declare allowed => exact allowed.elim

/-- Changing usage and value of a cell keeps the books of another scope, if that scope tells the
change. -/
theorem Orderly.change {scope' : Scope} (orderly : s.Orderly quote items scope) {name : Text} {i : Nat}
    {usage : Usage} {value : Value} (found : s.symbols.lookup? name = some i)
    (symbols : t.symbols = s.symbols.modify i usage value) (look : t.look = s.look)
    (unread : t.unread = s.unread) (temporaries : t.temporaries = s.temporaries) (valid : t.Valid)
    (program : ∀ other, scope'.program = some other →
      other = name ∨ scope.program = some other)
    (declared : ∀ entry ∈ scope'.declared, entry.1 = name ∨ entry ∈ scope.declared)
    (here : ∀ base : Cell, s.symbols.cells[i]? = some (scope.adapt base) → base.name.SameName name →
      scope'.adapt base = { scope.adapt base with usage, value })
    (elsewhere : ∀ base : Cell, ¬ name.SameName base.name → scope'.adapt base = scope.adapt base) :
    t.Orderly quote items scope' := by
  obtain ⟨proper, before, split, books⟩ := orderly
  have wf := books.valid.symbols
  have lookup (other : Text) : t.symbols.lookup? other = s.symbols.lookup? other := by
    rw [symbols, SymbolTable.lookup_modify]
  refine ⟨proper, before, unread ▸ split, valid, look ▸ books.look, ?_, ?_, ?_, ?_, ?_⟩
  · intro item member cell registers
    unfold NoCells
    rw [lookup, symbols, SymbolTable.size_modify]
    exact books.entered item member cell registers
  · intro j cell stored
    rw [symbols, SymbolTable.cells_modify] at stored
    split at stored
    · rename_i same
      subst same
      obtain ⟨old, before, rfl⟩ := Option.map_eq_some_iff.mp stored
      obtain ⟨base, origin, rfl⟩ := books.cells i old before
      obtain ⟨_, again, same⟩ := (wf.lookup_iff name i).mp found
      rw [before] at again
      cases again
      rw [scope.name_adapt] at same
      exact ⟨base, temporaries ▸ origin, (here base before same).symm⟩
    · rename_i other
      obtain ⟨base, origin, rfl⟩ := books.cells j cell stored
      refine ⟨base, temporaries ▸ origin, (elsewhere base fun same => other ?_).symm⟩
      have again := (wf.lookup_iff name j).mpr ⟨_, stored, by rw [scope.name_adapt]; exact same.symm⟩
      exact Option.some.inj (found.symm.trans again)
  · intro other named
    rw [lookup]
    obtain rfl | named := program other named
    · exact ⟨i, found⟩
    · exact books.program other named
  · intro entry member
    rw [lookup]
    obtain same | member := declared entry member
    · exact ⟨i, same ▸ found⟩
    · exact books.declared entry member
  · rw [temporaries]
    exact fun n le => (lookup _).trans (books.fresh n le)

theorem Orderly.declare (orderly : s.Orderly quote items scope) {name : Text} {i : Nat} {kind : Kind}
    (found : s.symbols.lookup? name = some i)
    (symbols : t.symbols = s.symbols.modify i .var (.zero kind)) (look : t.look = s.look)
    (unread : t.unread = s.unread) (temporaries : t.temporaries = s.temporaries) (valid : t.Valid) :
    t.Orderly quote items (scope.extend [(name, kind)]) := by
  refine orderly.change found symbols look unread temporaries valid (fun _ named => .inr named) ?_ ?_ ?_
  · intro entry member
    obtain member | member := List.mem_append.mp member
    · exact .inr member
    · exact .inl (List.mem_singleton.mp member ▸ rfl)
  · intro base _ same
    have last : (scope.extend [(name, kind)]).kind? base.name = some kind := by
      rw [Scope.kind?_extend, if_pos same.symm]
    have name := scope.name_adapt base
    unfold Scope.adapt at *
    rw [last]
    simp only [name]
  · intro base other
    have before : (scope.extend [(name, kind)]).kind? base.name = scope.kind? base.name := by
      rw [Scope.kind?_extend, if_neg other]
    simp only [Scope.adapt, before]
    rfl

/-- Naming the program, before any declaration. -/
theorem Orderly.nameProgram (orderly : s.Orderly quote items {}) {name : Text} {i : Nat} {cell : Cell}
    (found : s.symbols.lookup? name = some i) (here : s.symbols.cells[i]? = some cell)
    (symbols : t.symbols = s.symbols.modify i .program cell.value) (look : t.look = s.look)
    (unread : t.unread = s.unread) (temporaries : t.temporaries = s.temporaries) (valid : t.Valid) :
    t.Orderly quote items { program := some name } := by
  refine orderly.change found symbols look unread temporaries valid ?_ nofun ?_ ?_
  · intro other named
    exact .inl (Option.some.inj named).symm
  · intro base stored same
    rw [here] at stored
    cases stored
    have same : name.SameName base.name := same.symm
    simp [Scope.adapt, Scope.kind?, Scope.isProgram, same]
  · intro base other
    simp [Scope.adapt, Scope.kind?, Scope.isProgram, other]

theorem Moves.orderly (moves : Moves False s t) (orderly : s.Orderly quote items scope) :
    t.Orderly quote items scope :=
  moves.keeps (fun _ _ move => move.orderly) orderly

end Session

end MiniPascal
