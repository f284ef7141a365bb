import MiniPascal.Proofs.Compiler.Bookkeeping
import MiniPascal.Proofs.Compiler.ReadingStatements
import Mathlib.Data.List.Forall2

/-! # What a program without errors has read

A compilation without errors has read a program of the grammar, none of whose statements uses the
name of the program as a variable. Declarations are followed in the books: what a session ends with is
the scope that the program declares.
-/

namespace MiniPascal

/-- The scope that a program declares. -/
def Syntax.Program.scope (p : Syntax.Program) : Scope := ⟨some p.name, p.declarations⟩

namespace Rule

open Session Syntax

variable {s t : Session}

/-- The books go over into those of a scope with more declarations. -/
def Declares (s t : Session) (declared : List (Text × Kind)) : Prop :=
  ∀ quote items scope, s.Orderly quote items scope → t.Orderly quote items (scope.extend declared)

theorem Declares.of_moves (moves : Moves False s t) : Declares s t [] := by
  intro quote items scope orderly
  rw [Scope.extend_nil]
  exact moves.orderly orderly

theorem Declares.trans {u : Session} {first second : List (Text × Kind)} (left : Declares s t first)
    (right : Declares t u second) : Declares s u (first ++ second) := by
  intro quote items scope orderly
  rw [Scope.extend_append]
  exact right _ _ _ (left _ _ _ orderly)

theorem Declares.later {u : Session} {declared : List (Text × Kind)} (left : Declares s t declared)
    (moves : Moves False t u) : Declares s u declared :=
  fun _ _ _ orderly => moves.orderly (left _ _ _ orderly)

theorem Declares.earlier {u : Session} {declared : List (Text × Kind)} (moves : Moves False s t)
    (right : Declares t u declared) : Declares s u declared :=
  fun _ _ _ orderly => right _ _ _ (moves.orderly orderly)

theorem Declares.blind {declared : List (Text × Kind)} {journal journal' : Journal} {depth depth' : Nat}
    (inner : Declares { s with journal, depth } t declared) :
    Declares s { t with journal := journal', depth := depth' } declared :=
  (Declares.earlier (.single (.observe s _ _ _ _)) inner).later (.single (.observe t _ _ _ _))

/-! ## The name of the program -/

theorem change_does {change : SymbolTable → Except AccessError SymbolTable} {name : Text} {i : Nat}
    {cell : Cell} {usage : Usage} {value : Value} (word : name.IsWord)
    (found : s.symbols.lookup? name = some i) (stored : s.symbols.cells[i]? = some cell)
    (given : value = cell.value ∨ ∃ kind, value = .zero kind)
    (changes : change s.symbols = .ok (s.symbols.modify i usage value)) :
    Does True (Rule.change change) s fun _ t =>
      t = { s with symbols := s.symbols.modify i usage value } := by
  refine .bind (.of_ask changes) fun symbols t _ _ here => ?_
  obtain ⟨rfl, rfl⟩ := here
  exact .of_move (.declare t trivial usage value word found stored given)

/-- The name of the program was read. -/
def ReadsName (s : Session) (_ : Unit) (t : Session) : Prop :=
  s.look.kind = .identifier ∧ s.ahead = s.look :: t.ahead ∧
    ∀ quote items, s.Orderly quote items {} →
      t.Orderly quote items { program := some s.look.text }

theorem progIdentifier_does (s : Session) : Does True progIdentifier s (ReadsName s) := by
  refine Does.traced (P := fun _ => True) ?_ (fun _ _ _ _ => trivial) (fun s _ => ?_) trivial
  · rintro s _ t journal depth _ _ ⟨is, tokens, books⟩
    refine ⟨is, tokens, fun quote items orderly => ?_⟩
    exact (Move.observe t _ _ _ _).orderly
      (books quote items ((Move.observe s journal depth s.warned s.declared).orderly orderly))
  · refine .bind identifier_does fun i t _ valid here => ?_
    obtain ⟨is, word, found, rfl⟩ := here
    have more : s.look.kind ≠ .endOfInput := by simp [is]
    have step : Moves False s s.advance := .single (.advance s more)
    have found := step.extends.lookup _ _ found
    obtain ⟨cell, here⟩ := SymbolTable.exists_cell (valid.symbols.lookup_lt found)
    refine .bind (.of_ask (SymbolTable.value_of_cell here)) fun value t _ _ same => ?_
    obtain ⟨rfl, rfl⟩ := same
    refine (change_does word found here (.inl rfl) (SymbolTable.update_of_cell here rfl .program)).mono ?_
    intro _ t valid moves same
    have valid' := moves.valid valid
    subst same
    refine ⟨is, ahead_eq_cons more, fun quote items orderly => ?_⟩
    exact (step.orderly orderly).nameProgram found here rfl rfl rfl rfl valid'

/-! ## Declarations -/

theorem simpleType_does (s : Session) :
    Does False simpleType s fun kind t => TypeWord s.look.kind kind ∧ s.ahead = s.look :: t.ahead := by
  refine Does.traced (P := fun _ => True)
    (R := fun s kind t => TypeWord s.look.kind kind ∧ s.ahead = s.look :: t.ahead)
    (fun _ _ _ _ _ _ _ read => read) (fun _ _ _ _ => trivial) (fun s _ => ?_) trivial
  have word {kind : Kind} (is : TypeWord s.look.kind kind) :
      Does False (do advance; return kind) s fun kind t =>
        TypeWord s.look.kind kind ∧ s.ahead = s.look :: t.ahead := by
    have more : s.look.kind ≠ .endOfInput := by
      intro ended
      rw [ended] at is
      cases is
    refine .bind (.of_advance more) fun _ t _ _ same => .of_pure ⟨is, ?_⟩
    rw [same]
    exact ahead_eq_cons more
  refine .lookKind_bind ?_
  split
  · rename_i is
    exact word (is ▸ .integer)
  · rename_i is
    exact word (is ▸ .real)
  · rename_i is
    exact word (is ▸ .text)
  · exact .of_failExpecting _

/-- The cells of some words. -/
abbrev CellsOf (table : SymbolTable) : List Text → List Nat → Prop :=
  List.Forall₂ fun name i => name.IsWord ∧ table.lookup? name = some i

theorem CellsOf.extend {table more : SymbolTable} {names : List Text} {ids : List Nat}
    (cells : CellsOf table names ids) (extend : table.Extends more) : CellsOf more names ids :=
  cells.imp fun _ _ found => ⟨found.1, extend.lookup _ _ found.2⟩

/-- Names were read, and their cells returned. -/
def ReadsNames (s : Session) (ids : List Nat) (t : Session) : Prop :=
  ∃ names, NamesSpelled names s.ahead t.ahead ∧ CellsOf t.symbols names ids

theorem identifiers_does (s : Session) : Does False identifiers s (ReadsNames s) := by
  refine .bind identifier_does fun i t moves _ here => ?_
  obtain ⟨is, word, found, rfl⟩ := here
  have start : ReadsNames s [i] s.advance := by
    refine ⟨[s.look.text], ?_, .cons ⟨word, moves.extends.lookup _ _ found⟩ .nil⟩
    rw [ahead_eq_cons (by simp [is])]
    exact .single is
  refine .repeated (I := ReadsNames s) (fun ids t read => .lookKind_bind ?_) start
  split
  · rename_i isComma
    have more : t.look.kind ≠ .endOfInput := by simp [isComma]
    refine .bind (.of_advance more) fun _ u first _ same => ?_
    subst same
    refine .bind identifier_does fun j u second _ here => .of_pure ?_
    obtain ⟨is, word, found, rfl⟩ := here
    obtain ⟨names, spelled, cells⟩ := read
    refine ⟨names ++ [t.advance.look.text], ?_, ?_⟩
    · rw [ahead_eq_cons more, ahead_eq_cons (s := t.advance) (by simp [is])] at spelled
      exact .more spelled isComma is
    · exact List.rel_append (cells.extend (first.trans second).extends)
        (.cons ⟨word, second.extends.lookup _ _ found⟩ .nil)
  · exact .of_pure read

/-- A variable was declared, or several. -/
def Declared (s : Session) (declared : List (Text × Kind)) (t : Session) : Prop :=
  t.ahead = s.ahead ∧ (∀ name, t.symbols.lookup? name = s.symbols.lookup? name) ∧
    Declares s t declared

theorem declare_does {kind : Kind} {i : Nat} {name : Text} (word : name.IsWord)
    (found : s.symbols.lookup? name = some i) :
    Does True (declare kind i) s fun _ t => Declared s [(name, kind)] t := by
  have rest {u : Session} (same : u.symbols = s.symbols) (tokens : u.ahead = s.ahead)
      (before : Moves False s u) : Does True (do
        modify fun s => { s with declared := i :: s.declared }
        change (·.declare i kind)) u fun _ t => Declared s [(name, kind)] t := by
    refine .bind (.of_move (.observe u _ _ _ _)) fun _ v _ valid here => ?_
    have moves : Moves False s v := before.tail (here ▸ .observe u _ _ _ _)
    have symbols : v.symbols = s.symbols := here ▸ same
    have found' : v.symbols.lookup? name = some i := symbols ▸ found
    obtain ⟨cell, stored⟩ := SymbolTable.exists_cell (valid.symbols.lookup_lt found')
    refine (change_does word found' stored (.inr ⟨kind, rfl⟩)
      (SymbolTable.declare_of_cell stored kind)).mono fun _ t _ last changed => ?_
    have valid' := last.valid valid
    subst changed
    refine ⟨here ▸ tokens, fun other => symbols ▸ rfl, fun quote items scope orderly => ?_⟩
    exact (moves.orderly orderly).declare found' rfl rfl rfl rfl valid'
  refine .of_valid fun valid => .get_bind ?_
  dsimp only
  split
  · obtain ⟨cell, stored⟩ := SymbolTable.exists_cell (valid.symbols.lookup_lt found)
    refine .bind (.of_ask (SymbolTable.name_of_cell stored)) fun _ t _ _ here => ?_
    obtain ⟨rfl, rfl⟩ := here
    refine .bind (.of_remark _) fun _ t _ _ here => ?_
    exact rest (here ▸ rfl) (here ▸ rfl) (.single (here ▸ .observe _ _ _ _ _))
  · exact rest rfl rfl .refl

theorem declareAll_does {kind : Kind} {names : List Text} {ids : List Nat}
    (cells : CellsOf s.symbols names ids) :
    Does True (ids.forM (declare kind)) s fun _ t => Declared s (names.map (·, kind)) t := by
  induction ids generalizing names s with
  | nil =>
    cases cells
    exact .of_pure ⟨rfl, fun _ => rfl, .of_moves .refl⟩
  | cons i ids ih =>
    obtain _ | ⟨found, cells⟩ := cells
    change Does True (declare kind i >>= fun _ => ids.forM (declare kind)) s _
    refine .bind (declare_does found.1 found.2) fun _ t _ _ first => ?_
    have cells : CellsOf t.symbols _ ids :=
      cells.imp fun _ _ found => ⟨found.1, (first.2.1 _).trans found.2⟩
    refine (ih cells).mono fun _ u _ _ rest => ?_
    exact ⟨rest.1.trans first.1, fun name => (rest.2.1 name).trans (first.2.1 name),
      first.2.2.trans rest.2.2⟩

/-- A group of declarations was read. -/
def ReadsGroup (s : Session) (_ : Unit) (t : Session) : Prop :=
  ∃ (names : List Text) (colon word semicolon : Token) (kind : Kind),
    NamesSpelled names s.ahead (colon :: word :: semicolon :: t.ahead) ∧ colon.kind = .colon ∧
      TypeWord word.kind kind ∧ semicolon.kind = .semicolon ∧ Declares s t (names.map (·, kind))

theorem declarationGroup_does (s : Session) : Does True declarationGroup s (ReadsGroup s) := by
  refine .bind (identifiers_does s).weaken fun ids t₁ _ _ here => ?_
  obtain ⟨moves₁, names, spelled, cells⟩ := here
  refine .bind (Does.of_expect .colon nofun).weaken fun _ t₂ _ _ here => ?_
  obtain ⟨moves₂, isColon, rfl⟩ := here
  refine .bind (simpleType_does _).weaken fun kind t₂ _ _ here => ?_
  obtain ⟨moves₃, is, tokens⟩ := here
  have before := moves₂.trans moves₃
  refine .bind (declareAll_does (cells.extend before.extends)) fun _ t₃ _ _ here => ?_
  obtain ⟨ahead, _, declares⟩ := here
  refine (Does.of_expect .semicolon nofun).weaken.mono fun _ t₄ _ _ here => ?_
  obtain ⟨moves₄, ends, rfl⟩ := here
  refine ⟨names, t₁.look, t₁.advance.look, t₃.look, kind, ?_, isColon, is, ends, ?_⟩
  · rw [ahead_eq_cons (s := t₁) (by simp [isColon]), tokens, ← ahead,
      ahead_eq_cons (s := t₃) (by simp [ends])] at spelled
    exact spelled
  · exact (Declares.earlier (moves₁.trans before) declares).later moves₄

/-- Groups of declarations were read. -/
def ReadsGroups (s : Session) (_ : Unit) (t : Session) : Prop :=
  ∃ declared, GroupsSpelled declared s.ahead t.ahead ∧ Declares s t declared

theorem varDeclarations_does (s : Session) : Does True varDeclarations s (ReadsGroups s) := by
  refine Does.traced (P := fun _ => True) ?_ (fun _ _ _ _ => trivial) (fun s _ => ?_) trivial
  · rintro s _ t journal depth _ _ ⟨declared, spelled, declares⟩
    exact ⟨declared, spelled, declares.blind⟩
  -- before the first group nothing is read
  refine .repeated (I := fun _ t => t = s ∨ ReadsGroups s () t) (fun _ t read => ?_) (.inl rfl)
  have group : Does True declarationGroup t fun _ u => ReadsGroups s () u := by
    refine (declarationGroup_does t).mono fun _ u _ _ here => ?_
    obtain ⟨names, colon, word, semicolon, kind, spelled, isColon, is, ends, declares⟩ := here
    obtain rfl | ⟨declared, before, declares'⟩ := read
    · exact ⟨_, .single spelled isColon is ends, declares⟩
    · exact ⟨_, before.append (.single spelled isColon is ends), declares'.trans declares⟩
  refine .bind group fun _ u _ _ read => .lookKind_bind ?_
  split
  · exact .of_pure (.inr read)
  · exact .of_pure read

/-- Sections of declarations were read. -/
def ReadsSections (s : Session) (_ : Unit) (t : Session) : Prop :=
  ∃ declared, SectionsSpelled declared s.ahead t.ahead ∧ Declares s t declared

theorem varSections_does (s : Session) : Does True varSections s (ReadsSections s) := by
  have start : ReadsSections s () s := ⟨[], .none, .of_moves .refl⟩
  refine .repeated (I := ReadsSections s) (fun _ t read => .lookKind_bind ?_) start
  split
  · rename_i is
    have more : t.look.kind ≠ .endOfInput := by simp [is]
    refine .bind (Does.of_advance more).weaken fun _ u _ _ here => ?_
    obtain ⟨moves, rfl⟩ := here
    refine .bind (varDeclarations_does _) fun _ u _ _ groups => .of_pure ?_
    obtain ⟨declared, before, declares⟩ := read
    obtain ⟨declared', spelled, declares'⟩ := groups
    rw [ahead_eq_cons more] at before
    have last : SectionsSpelled (declared' ++ []) (t.look :: t.advance.ahead) u.ahead :=
      .more is spelled .none
    rw [List.append_nil] at last
    exact ⟨declared ++ declared', before.append last,
      declares.trans (Declares.earlier moves declares')⟩
  · exact .of_pure read

/-! ## Whole programs -/

/-- Declarations and statements were read. -/
def ReadsBody (s : Session) (_ : Unit) (t : Session) : Prop :=
  t.Clean → ∃ (first last : Token) (input : List Token) (declared : List (Text × Kind)) (stmt : Stmt)
      (d : Bool), SectionsSpelled declared s.ahead (first :: input) ∧ first.kind = .kwBegin ∧
    last.kind = .kwEnd ∧ stmt.Spelled True .many d input (last :: t.ahead) ∧
      (∀ name ∈ stmt.names, t.symbols.Usable name) ∧ Declares s t declared

theorem block_does (s : Session) : Does True block s (ReadsBody s) := by
  refine Does.traced (P := fun _ => True) ?_ (fun _ _ _ _ => trivial) (fun s _ => ?_) trivial
  · intro s _ t journal depth _ _ read clean
    obtain ⟨first, last, input, declared, stmt, d, rest, begins, ends, spelled, usable, declares⟩ :=
      read clean
    exact ⟨first, last, input, declared, stmt, d, rest, begins, ends, spelled, usable, declares.blind⟩
  refine .bind (varSections_does s) fun _ t _ _ read => ?_
  refine (blockBody_does statement_does t).weaken.mono fun _ u _ _ here => ?_
  obtain ⟨moves, body⟩ := here
  intro clean
  obtain ⟨declared, sections, declares⟩ := read
  obtain ⟨first, last, input, stmt, d, tokens, begins, ends, spelled, usable⟩ := body clean
  rw [tokens] at sections
  exact ⟨first, last, input, declared, stmt, d, sections, begins, ends, spelled, usable,
    declares.later moves⟩

/-- A program was read. -/
def ReadsProgram (s : Session) (_ : Unit) (t : Session) : Prop :=
  t.Clean → ∃ p : Syntax.Program, p.Spelled True s.ahead t.ahead ∧
    (∀ name ∈ p.body.names, t.symbols.Usable name) ∧
      ∀ quote items, s.Orderly quote items {} → t.Orderly quote items p.scope

theorem program_does (s : Session) : Does True program s (ReadsProgram s) := by
  refine Does.traced (P := fun _ => True) ?_ (fun _ _ _ _ => trivial) (fun s _ => ?_) trivial
  · intro s _ t journal depth _ _ read clean
    obtain ⟨p, spelled, usable, books⟩ := read clean
    refine ⟨p, spelled, usable, fun quote items orderly => ?_⟩
    exact (Move.observe t _ _ _ _).orderly
      (books quote items ((Move.observe s journal depth s.warned s.declared).orderly orderly))
  refine .bind (Does.of_expect .kwUnit nofun).weaken fun _ t₁ _ _ here => ?_
  obtain ⟨moves₁, isUnit, rfl⟩ := here
  refine .bind (progIdentifier_does _) fun _ t₂ _ _ named => ?_
  refine .bind (Does.of_expect .semicolon nofun).weaken fun _ t₃ _ _ here => ?_
  obtain ⟨moves₃, isSemicolon, rfl⟩ := here
  refine .bind (block_does _) fun _ t₄ _ valid read => ?_
  refine .bind (Does.of_expect .period nofun).weaken fun _ t₅ _ _ here => ?_
  obtain ⟨moves₅, isPeriod, rfl⟩ := here
  have stop : Quad.WellFormed t₄.advance.symbols.size ⟨.stop, 0, 0, 0⟩ := ⟨rfl, nofun⟩
  refine .bind (emit_does stop nofun).weaken fun _ t₆ _ _ here => .of_pure ?_
  obtain ⟨moves₆, _, _, rfl⟩ := here
  intro clean
  obtain ⟨first, last, input, declared, stmt, d, sections, begins, ends, spelled, usable, declares⟩ :=
    read ((moves₅.trans moves₆).clean valid clean)
  refine ⟨⟨s.advance.look.text, declared, stmt⟩, ?_, fun name member => ?_, fun quote items orderly => ?_⟩
  · rw [ahead_eq_cons (s := s) (by simp [isUnit]), named.2.1,
      ahead_eq_cons (s := t₂) (by simp [isSemicolon])]
    rw [ahead_eq_cons (s := t₄) (by simp [isPeriod])] at spelled
    exact .intro isUnit named.1 isSemicolon sections begins spelled ends isPeriod
  · exact (usable name member).extend (moves₅.trans moves₆).extends
  · have named := named.2.2 quote items (moves₁.orderly orderly)
    have declared := declares quote items _ (moves₃.orderly named)
    exact (moves₅.trans moves₆).orderly declared

end Rule

end MiniPascal
