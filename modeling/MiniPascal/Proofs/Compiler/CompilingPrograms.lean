import MiniPascal.Proofs.Compiler.CompilingStatements
import MiniPascal.Proofs.Compiler.ReadingPrograms

/-! # Programs are compiled

Declarations change the scope, so what they achieve is stated with the scope before and after
(`Rule.Progresses`). A program of the grammar that does not use its own name as a variable is read to
its end, and leaves the code of its statements and the quad that stops it.
-/

namespace MiniPascal.Rule

open Session Syntax

variable {α β : Type} {scope scope' : Scope} {s t : Session}
variable {token : Token} {input rest : List Token}

theorem Achieves.and_does {declaring : Prop} {rule : Rule α} {result result' : α → Session → Prop}
    (achieves : Achieves rule s result) (does : Does declaring rule s result') (valid : s.Valid) :
    Achieves rule s fun a t => result a t ∧ result' a t :=
  (Leads.and achieves (does valid)).mono (fun _ _ here => ⟨here.1.1, here.1.2, here.2.2⟩)
    fun _ _ here => here.1

/-- A rule achieves a result and takes the books of one scope over into those of another. -/
def Progresses (scope scope' : Scope) (rule : Rule α) (s : Session) (result : α → Session → Prop) :
    Prop :=
  ∀ quote items, s.Orderly quote items scope →
    Achieves rule s fun a t => t.Orderly quote items scope' ∧ result a t

namespace Progresses

variable {rule : Rule α} {next : α → Rule β} {result result' : α → Session → Prop}
variable {after : β → Session → Prop}

theorem of_succeeds (succeeds : Succeeds scope rule s result) :
    Progresses scope scope rule s fun a t => Moves False s t ∧ result a t :=
  fun quote items orderly => (succeeds quote items orderly).mono fun _ _ here =>
    ⟨here.1.orderly orderly, here⟩

theorem bind {scope'' : Scope} (first : Progresses scope scope' rule s result)
    (second : ∀ a t, result a t → Progresses scope' scope'' (next a) t after) :
    Progresses scope scope'' (rule >>= next) s after :=
  fun quote items orderly => (first quote items orderly).bind fun a t here =>
    second a t here.2 quote items here.1

theorem mono (first : Progresses scope scope' rule s result)
    (imp : ∀ a t, result a t → result' a t) : Progresses scope scope' rule s result' :=
  fun quote items orderly => (first quote items orderly).mono fun a t here =>
    ⟨here.1, imp a t here.2⟩

theorem of_eq {other : Rule α} (same : rule s = other s)
    (progresses : Progresses scope scope' other s result) : Progresses scope scope' rule s result :=
  fun quote items orderly => .of_eq same (progresses quote items orderly)

theorem of_pure {a : α} (holds : result a s) : Progresses scope scope (pure a) s result :=
  fun _ _ orderly => .of_pure ⟨orderly, holds⟩

theorem lookKind_bind {next : TokenKind → Rule β}
    (first : Progresses scope scope' (next s.look.kind) s after) :
    Progresses scope scope' (lookKind >>= next) s after := first

theorem traced {R : Session → α → Session → Prop} {body : Rule α} {name : Nonterminal}
    (blind : ∀ s a t journal depth journal' depth', R { s with journal, depth } a t →
      R s a { t with journal := journal', depth := depth' })
    (inner : ∀ s, s.ahead = input → Progresses scope scope' body s (R s)) (tokens : s.ahead = input) :
    Progresses scope scope' (Rule.traced name body) s (R s) := by
  intro quote items orderly
  refine Achieves.traced (R := fun s a t => t.Orderly quote items scope' ∧ R s a t) ?_
    fun journal depth => ?_
  · rintro s a t journal depth journal' depth' ⟨orderly, holds⟩
    exact ⟨(Move.observe t _ _ _ _).orderly orderly, blind _ _ _ _ _ _ _ holds⟩
  · exact inner { s with journal, depth } tokens quote items
      ((Move.observe s journal depth _ _).orderly orderly)

end Progresses

/-- Only tokens were read and symbols declared. -/
structure Passes (s : Session) (rest : List Token) (t : Session) : Prop where
  code : t.code = s.code
  temporaries : t.temporaries = s.temporaries
  ahead : t.ahead = rest

theorem Passes.trans {u : Session} {middle : List Token} (first : Passes s middle t)
    (second : Passes t rest u) : Passes s rest u :=
  ⟨second.code.trans first.code, second.temporaries.trans first.temporaries, second.ahead⟩

theorem Passes.blind (s : Session) (_ : Unit) (t : Session) (journal : Journal) (depth : Nat)
    (journal' : Journal) (depth' : Nat) (passes : Passes { s with journal, depth } rest t) :
    Passes s rest { t with journal := journal', depth := depth' } :=
  ⟨passes.code, passes.temporaries, passes.ahead⟩

theorem expect_passes {kind : TokenKind} (tokens : s.ahead = token :: rest) (is : token.kind = kind) :
    Progresses scope scope (expect kind) s fun _ => Passes s rest :=
  (Progresses.of_succeeds (expect_succeeds tokens is)).mono fun _ _ here =>
    ⟨here.2.1 ▸ rfl, here.2.1 ▸ rfl, here.2.2⟩

/-! ## Declarations -/

theorem change_achieves {change : SymbolTable → Except AccessError SymbolTable} {i : Nat}
    {usage : Usage} {value : Value}
    (changes : change s.symbols = .ok (s.symbols.modify i usage value)) :
    Achieves (Rule.change change) s fun _ t =>
      t = { s with symbols := s.symbols.modify i usage value } := by
  refine .bind (.of_ask changes) fun symbols t same => ?_
  obtain ⟨rfl, rfl⟩ := same
  exact .of_modify rfl

theorem progIdentifier_progresses (tokens : s.ahead = token :: rest) (is : token.kind = .identifier) :
    Progresses {} { program := some token.text } progIdentifier s fun _ => Passes s rest := by
  refine .traced (R := fun s _ => Passes s rest) Passes.blind (fun s tokens => ?_) tokens
  intro quote items orderly
  refine .bind (identifier_succeeds tokens is quote items orderly) fun i t here => ?_
  obtain ⟨moves, takes⟩ := here
  have orderly := moves.orderly orderly
  have valid := orderly.valid
  obtain ⟨cell, stored⟩ := SymbolTable.exists_cell (valid.symbols.lookup_lt takes.found)
  refine .bind (.of_ask (SymbolTable.value_of_cell stored)) fun value u same => ?_
  obtain ⟨rfl, rfl⟩ := same
  refine (change_achieves (SymbolTable.update_of_cell stored rfl .program)).mono fun _ v same => ?_
  subst same
  refine ⟨?_, takes.code, takes.temporaries, takes.ahead⟩
  exact orderly.nameProgram takes.found stored rfl rfl rfl rfl
    ⟨valid.symbols.modify i .program cell.value, valid.quads, valid.words.look, valid.words.unread⟩

theorem simpleType_succeeds {kind : Kind} (tokens : s.ahead = token :: rest)
    (is : TypeWord token.kind kind) :
    Succeeds scope simpleType s fun found t => found = kind ∧ Passes s rest t := by
  refine .traced (R := fun s found t => found = kind ∧ Passes s rest t)
    (fun s _ t _ _ _ _ here => ⟨here.1, Passes.blind s () t _ _ _ _ here.2⟩) (fun s tokens => ?_) tokens
  obtain ⟨rfl, _⟩ := look_of_ahead tokens
  have word : Succeeds scope (do advance; return kind) s fun found t => found = kind ∧ Passes s rest t :=
    .bind (advance_succeeds tokens) fun _ t _ same =>
      .of_pure ⟨rfl, same.1 ▸ rfl, same.1 ▸ rfl, same.2⟩
  refine .lookKind_bind ?_
  generalize s.look.kind = first at is ⊢
  cases is with
  | integer | real | text => exact word

/-- Names were read, and their cells returned. -/
def Names (names : List Text) (s : Session) (rest : List Token) (ids : List Nat) (t : Session) : Prop :=
  Passes s rest t ∧ CellsOf t.symbols names ids

theorem identifiers_chain {names : List Text} (spelled : NamesSpelled names input rest)
    (tokens : s.ahead = input) :
    Chains scope anotherIdentifier identifiers s rest (Names names s rest) := by
  induction spelled with
  | single is =>
    refine .of_first (.of_word tokens is fun word => (identifier_succeeds tokens is).mono
      fun i t _ takes => ?_) fun _ _ names => names.1.ahead
    exact ⟨⟨takes.code, takes.temporaries, takes.ahead⟩, .cons ⟨word, takes.found⟩ .nil⟩
  | @more comma t _ _ rest _ isComma is ih =>
    refine (ih tokens).more (fun ids u _ names => ?_)
      (Nat.lt_succ_of_lt (Nat.lt_succ_self _))
    obtain ⟨passes, cells⟩ := names
    obtain ⟨here, _⟩ := look_of_ahead passes.ahead
    refine .lookKind_bind ?_
    rw [here, if_pos isComma]
    refine .bind (advance_succeeds passes.ahead) fun _ v first same => ?_
    obtain ⟨rfl, ahead⟩ := same
    refine .of_word ahead is fun word => ?_
    refine .bind (identifier_succeeds ahead is) fun i v second takes => .of_pure ?_
    have later : Moves False u v := first.trans second
    refine ⟨ids ++ [i], rfl, ⟨takes.code.trans passes.code, ?_, takes.ahead⟩, ?_⟩
    · exact takes.temporaries.trans passes.temporaries
    · exact List.rel_append (cells.extend later.extends) (.cons ⟨word, takes.found⟩ .nil)

theorem identifiers_succeeds {names : List Text} (spelled : NamesSpelled names input rest)
    (ends : firstKind rest ≠ .comma) (tokens : s.ahead = input) :
    Succeeds scope identifiers s (Names names s rest) := by
  refine (identifiers_chain spelled tokens).done fun _ t _ names => .lookKind_bind ?_
  rw [← firstKind_ahead, names.1.ahead, if_neg ends]
  exact .of_pure ⟨rfl, rfl⟩

/-- Variables were declared. -/
def DeclaresOnly (s : Session) (t : Session) : Prop :=
  Passes s s.ahead t ∧ ∀ name, t.symbols.lookup? name = s.symbols.lookup? name

theorem declare_progresses {kind : Kind} {i : Nat} {name : Text} (word : name.IsWord)
    (found : s.symbols.lookup? name = some i) :
    Progresses scope (scope.extend [(name, kind)]) (declare kind i) s fun _ => DeclaresOnly s := by
  intro quote items orderly
  have valid := orderly.valid
  obtain ⟨cell, stored⟩ := SymbolTable.exists_cell (valid.symbols.lookup_lt found)
  have rest {u : Session} (same : u.symbols = s.symbols) (written : u.code = s.code)
      (counted : u.temporaries = s.temporaries) : Achieves (do
        modify fun s => { s with declared := i :: s.declared }
        change (·.declare i kind)) u fun _ t =>
          t.code = s.code ∧ t.temporaries = s.temporaries := by
    refine .bind (.of_modify rfl) fun _ v here => ?_
    have stored : v.symbols.cells[i]? = some cell := by rw [here, same, stored]
    refine (change_achieves (SymbolTable.declare_of_cell stored kind)).mono fun _ w here' => ?_
    subst here' here
    exact ⟨written, counted⟩
  have frame : Achieves (declare kind i) s fun _ t =>
      t.code = s.code ∧ t.temporaries = s.temporaries := by
    refine .get_bind ?_
    dsimp only
    split
    · refine .bind (.of_ask (SymbolTable.name_of_cell stored)) fun _ t here => ?_
      obtain ⟨rfl, rfl⟩ := here
      exact .bind (.of_modify rfl) fun _ u here => rest (here ▸ rfl) (here ▸ rfl) (here ▸ rfl)
    · exact rest rfl rfl rfl
  refine (frame.and_does (declare_does word found) valid).mono fun _ t here => ?_
  obtain ⟨⟨code, temporaries⟩, ahead, lookup, declares⟩ := here
  exact ⟨declares quote items scope orderly, ⟨code, temporaries, ahead⟩, lookup⟩

theorem declareAll_progresses {kind : Kind} {names : List Text} {ids : List Nat}
    (cells : CellsOf s.symbols names ids) :
    Progresses scope (scope.extend (names.map (·, kind))) (ids.forM (declare kind)) s
      fun _ => DeclaresOnly s := by
  induction ids generalizing names s scope with
  | nil =>
    cases cells
    rw [List.map_nil, Scope.extend_nil]
    exact .of_pure ⟨⟨rfl, rfl, rfl⟩, fun _ => rfl⟩
  | cons i ids ih =>
    obtain _ | ⟨found, cells⟩ := cells
    rw [List.map_cons, ← List.singleton_append, Scope.extend_append]
    change Progresses _ _ (declare kind i >>= fun _ => ids.forM (declare kind)) s _
    refine .bind (declare_progresses found.1 found.2) fun _ t first => ?_
    have cells : CellsOf t.symbols _ ids :=
      cells.imp fun _ _ found => ⟨found.1, (first.2 _).trans found.2⟩
    refine (ih cells).mono fun _ u rest => ⟨?_, fun name => (rest.2 name).trans (first.2 name)⟩
    exact first.1.trans (first.1.ahead ▸ rest.1)

theorem declarationGroup_progresses {colon word semicolon : Token} {names : List Text} {kind : Kind}
    (spelled : NamesSpelled names input (colon :: word :: semicolon :: rest))
    (isColon : colon.kind = .colon) (is : TypeWord word.kind kind)
    (ends : semicolon.kind = .semicolon) (tokens : s.ahead = input) :
    Progresses scope (scope.extend (names.map (·, kind))) declarationGroup s fun _ => Passes s rest := by
  refine .bind (.of_succeeds (identifiers_succeeds spelled (by simp [isColon]) tokens))
    fun ids t₁ here => ?_
  obtain ⟨_, passes₁, cells⟩ := here
  refine .bind (.of_succeeds (expect_succeeds passes₁.ahead isColon)) fun _ t₂ here => ?_
  obtain ⟨moves₂, rfl, ahead⟩ := here
  refine .bind (.of_succeeds (simpleType_succeeds ahead is)) fun _ t₂ here => ?_
  obtain ⟨moves₃, rfl, passes₂⟩ := here
  have before := moves₂.trans moves₃
  refine .bind (declareAll_progresses (cells.extend before.extends)) fun _ t₃ declared => ?_
  have tokens₃ := declared.1.ahead.trans passes₂.ahead
  refine (expect_passes tokens₃ ends).mono fun _ t₄ passes₄ => ?_
  have passes₁₂ : Passes s _ t₁.advance := ⟨passes₁.code, passes₁.temporaries, ahead⟩
  exact (passes₁₂.trans (passes₂.trans declared.1)).trans passes₄

theorem groups_progress {declared : List (Text × Kind)} (spelled : GroupsSpelled declared input rest)
    (ends : firstKind rest ≠ .identifier) {m : Nat} (enough : input.length < m)
    (tokens : s.ahead = input) :
    Progresses scope (scope.extend declared) (iterate oneGroup m ()) s fun _ => Passes s rest := by
  induction spelled generalizing s scope m with
  | @single _ _ _ names kind _ rest group isColon is semicolon =>
    obtain _ | m := m
    · omega
    have step : Progresses scope (scope.extend (names.map (·, kind))) (oneGroup ()) s fun found t =>
        found = none ∧ Passes s rest t := by
      refine .bind (declarationGroup_progresses group isColon is semicolon tokens)
        fun _ t passes => .lookKind_bind ?_
      rw [← firstKind_ahead, passes.ahead, if_neg ends]
      exact .of_pure ⟨rfl, passes⟩
    refine .bind step fun found t here => ?_
    obtain ⟨rfl, passes⟩ := here
    exact .of_pure passes
  | @more _ _ _ _ names kind _ middle _ group isColon is semicolon others ih =>
    obtain _ | m := m
    · omega
    have shorter := group.shorter
    simp only [List.length_cons] at shorter
    have step : Progresses scope (scope.extend (names.map (·, kind))) (oneGroup ()) s fun found t =>
        found = some () ∧ Passes s middle t := by
      refine .bind (declarationGroup_progresses group isColon is semicolon tokens)
        fun _ t passes => .lookKind_bind ?_
      rw [← firstKind_ahead, passes.ahead, if_pos others.firstKind]
      exact .of_pure ⟨rfl, passes⟩
    rw [Scope.extend_append]
    refine .bind step fun found t here => ?_
    obtain ⟨rfl, passes⟩ := here
    exact (ih ends (by omega) passes.ahead).mono fun _ _ passes' => passes.trans passes'

theorem varDeclarations_progresses {declared : List (Text × Kind)}
    (spelled : GroupsSpelled declared input rest) (ends : firstKind rest ≠ .identifier)
    (tokens : s.ahead = input) :
    Progresses scope (scope.extend declared) varDeclarations s fun _ => Passes s rest := by
  refine .traced (R := fun s _ => Passes s rest) Passes.blind (fun s tokens => ?_) tokens
  have enough : input.length < s.unread.length + 2 := Nat.lt_succ_of_le (tokens ▸ s.length_ahead_le)
  exact .of_eq rfl (groups_progress spelled ends enough tokens)

theorem sections_progress {declared : List (Text × Kind)}
    (spelled : SectionsSpelled declared input rest) (begins : firstKind rest = .kwBegin) {m : Nat}
    (enough : input.length < m) (tokens : s.ahead = input) :
    Progresses scope (scope.extend declared) (iterate anotherSection m ()) s fun _ => Passes s rest := by
  induction spelled generalizing s scope m with
  | none =>
    obtain _ | m := m
    · omega
    rw [Scope.extend_nil]
    have step : Progresses scope scope (anotherSection ()) s fun found t => found = none ∧ t = s := by
      refine .lookKind_bind ?_
      rw [← firstKind_ahead, tokens, begins]
      exact .of_pure ⟨rfl, rfl⟩
    refine .bind step fun found t here => ?_
    obtain ⟨rfl, rfl⟩ := here
    exact .of_pure ⟨rfl, rfl, tokens⟩
  | @more _ _ groups _ middle _ is first others ih =>
    obtain _ | m := m
    · omega
    have shorter := first.shorter
    simp only [List.length_cons] at enough
    have ends : firstKind middle ≠ .identifier := by
      cases others with
      | none => simp [begins]
      | more is => simp [is]
    have step : Progresses scope (scope.extend groups) (anotherSection ()) s fun found t =>
        found = some () ∧ Passes s middle t := by
      obtain ⟨here, _⟩ := look_of_ahead tokens
      refine .lookKind_bind ?_
      rw [here, if_pos is]
      refine .bind (.of_succeeds (advance_succeeds tokens)) fun _ t here => ?_
      obtain ⟨_, rfl, ahead⟩ := here
      refine .bind (varDeclarations_progresses first ends ahead) fun _ t passes => .of_pure ?_
      exact ⟨rfl, passes.code, passes.temporaries, passes.ahead⟩
    rw [Scope.extend_append]
    refine .bind step fun found t here => ?_
    obtain ⟨rfl, passes⟩ := here
    exact (ih begins (by omega) passes.ahead).mono fun _ _ passes' => passes.trans passes'

/-! ## Whole programs -/

theorem block_progresses {begins ends : Token} {middle : List Token} {declared : List (Text × Kind)}
    {stmt : Stmt} {d : Bool} (sections : SectionsSpelled declared input (begins :: middle))
    (isBegin : begins.kind = .kwBegin) (spelled : stmt.Spelled True .many d middle (ends :: rest))
    (isEnd : ends.kind = .kwEnd) (allowed : ∀ name ∈ stmt.names, (scope.extend declared).Allows name)
    (tokens : s.ahead = input) :
    Progresses scope (scope.extend declared) block s fun _ => Lays stmt s rest () := by
  refine .traced (R := fun s _ => Lays stmt s rest ()) (fun s _ => Lays.blind s ())
    (fun s tokens => ?_) tokens
  have enough : input.length < s.unread.length + 2 := Nat.lt_succ_of_le (tokens ▸ s.length_ahead_le)
  refine .bind (.of_eq rfl (sections_progress sections (by simp [isBegin]) enough tokens))
    fun _ t passes => ?_
  refine (Progresses.of_succeeds
    (blockBody_compiled passes.ahead isBegin spelled isEnd allowed)).mono fun _ u here => ?_
  obtain ⟨_, ahead, laid⟩ := here
  refine ⟨ahead, fun room => ?_⟩
  obtain ⟨code, written, laid⟩ := laid room
  rw [passes.code] at written laid
  exact ⟨code, written, passes.temporaries ▸ laid⟩

/-- The code of a program was written: that of its statements, and the quad that stops it. -/
def Builds (p : Syntax.Program) (s : Session) (rest : List Token) (t : Session) : Prop :=
  t.ahead = rest ∧ ∃ code, t.code = s.code ++ (code ++ [⟨.stop, 0, 0, 0⟩]) ∧
    p.body.Laid t.symbols s.temporaries t.temporaries s.code.length code

theorem program_progresses {p : Syntax.Program} (spelled : p.Spelled True input rest)
    (allowed : ∀ name ∈ p.body.names, p.scope.Allows name) (tokens : s.ahead = input) :
    Progresses {} p.scope program s fun _ => Builds p s rest := by
  obtain ⟨isUnit, is, isSemicolon, sections, isBegin, statements, isEnd, isPeriod⟩ := spelled
  refine .traced (R := fun s _ => Builds _ s rest) (fun _ _ _ _ _ _ _ builds => builds)
    (fun s tokens => ?_) tokens
  refine .bind (expect_passes tokens isUnit) fun _ t₁ passes₁ => ?_
  refine .bind (progIdentifier_progresses passes₁.ahead is) fun _ t₂ passes₂ => ?_
  refine .bind (expect_passes passes₂.ahead isSemicolon) fun _ t₃ passes₃ => ?_
  have passes := (passes₁.trans passes₂).trans passes₃
  refine .bind (block_progresses sections isBegin statements isEnd allowed passes₃.ahead)
    fun _ t₄ lays => ?_
  refine .bind (.of_succeeds (expect_succeeds lays.1 isPeriod)) fun _ t₅ here => ?_
  obtain ⟨moves, rfl, ahead⟩ := here
  have stop : Quad.WellFormed t₄.advance.symbols.size ⟨.stop, 0, 0, 0⟩ := ⟨rfl, nofun⟩
  refine .bind (.of_succeeds (emit_succeeds stop nofun)) fun _ t₆ here => .of_pure ?_
  obtain ⟨moves', emits⟩ := here
  obtain ⟨code, written, laid⟩ := lays.2 (moves.room emits.room)
  rw [passes.code] at written laid
  refine ⟨emits.ahead.trans ahead, code, ?_, ?_⟩
  · rw [emits.code, code_advance, written, List.append_assoc]
  · rw [emits.temporaries, temporaries_advance, ← passes.temporaries]
    exact laid.extend (moves.trans moves').extends

end MiniPascal.Rule
