import MiniPascal.Proofs.Compiler.Bookkeeping
import MiniPascal.Proofs.Compiler.ReadingExpressions

/-! # Rules that succeed

`Rule.Achieves` says that a rule returns without an error, or else gives up because a table is full.
`Rule.Succeeds` adds that the session it starts from has its books in order and that it declares
nothing. The lemmas here give this for the rules that write quads and symbols and for those that read
a single token, with the session that they end with.
-/

namespace MiniPascal

/-- A name may be used as a variable: it names the program only if it was declared after that. -/
def Scope.Allows (scope : Scope) (name : Text) : Prop :=
  scope.isProgram name = true → scope.kind? name ≠ none

namespace Session

variable {quote : Char} {items : List Scanned} {scope : Scope} {s : Session}

theorem Orderly.valid (orderly : s.Orderly quote items scope) : s.Valid := by
  obtain ⟨_, _, _, books⟩ := orderly
  exact books.valid

/-- The current token has its cell, unless the table is full. -/
theorem Orderly.registered (orderly : s.Orderly quote items scope)
    (is : s.look.kind.hasSymbol = true) :
    (∃ i, s.symbols.lookup? s.look.text = some i) ∨ s.NoCells := by
  obtain ⟨proper, before, split, books⟩ := orderly
  have more : s.look.kind ≠ .endOfInput := by
    intro ended
    simp [ended, TokenKind.hasSymbol] at is
  obtain ⟨item, member, token⟩ := books.look more
  cases here : item.lexeme with
  | none => simp [token, Scanned.token, here, Token.endOfInput] at more
  | some found =>
    have same : s.look = found.token := by simp [token, Scanned.token, here]
    rw [same] at is
    obtain ⟨registration, registers⟩ :=
      (proper item (split ▸ List.mem_append_left _ member) found here).exists_registration is
    rw [same]
    exact books.entered item member ⟨found.token.text, registration.usage, registration.value⟩
      (by simp [Scanned.cell?, here, registers])

/-- The cells with the usage of a program name are those that the scope says. -/
theorem Orderly.usage (orderly : s.Orderly quote items scope) {name : Text} {i : Nat} {cell : Cell}
    (found : s.symbols.lookup? name = some i) (stored : s.symbols.cells[i]? = some cell) :
    cell.usage = .program ↔ scope.isProgram name = true ∧ scope.kind? name = none := by
  obtain ⟨proper, before, split, books⟩ := orderly
  obtain ⟨base, origin, rfl⟩ := books.cells i cell stored
  have plain : base.usage ≠ .program := by
    cases origin with
    | scanned first =>
      obtain ⟨item, member, registers⟩ := List.mem_filterMap.mp (List.mem_of_find?_eq_some first)
      obtain ⟨found, lexeme, here⟩ := Option.bind_eq_some_iff.mp registers
      obtain ⟨registration, registered, rfl⟩ := Option.map_eq_some_iff.mp here
      exact (proper item (split ▸ List.mem_append_left _ member) found lexeme).usage registered
    | unit n _ same => simp [same]
    | temporary n kind _ same => simp [same]
  obtain ⟨_, again, same⟩ := (books.valid.symbols.lookup_iff name i).mp found
  rw [stored] at again
  cases again
  rw [Scope.name_adapt] at same
  rw [Scope.usage_adapt plain, scope.isProgram_congr same, scope.kind?_congr same]

end Session

namespace Rule

open Session

variable {α β : Type} {s : Session}

/-- A rule returns without an error and with the stated result, or gives up for good because a table
is full. -/
def Achieves (rule : Rule α) (s : Session) (result : α → Session → Prop) : Prop :=
  Leads rule s (fun a t => t.syntaxErrors = s.syntaxErrors ∧ result a t)
    fun abort t => abort = .gaveUp ∧ t.exhausted = true ∧ t.Full

namespace Achieves

variable {rule : Rule α} {next : α → Rule β} {result result' : α → Session → Prop}
variable {after : β → Session → Prop}

theorem bind (first : Achieves rule s result)
    (second : ∀ a t, result a t → Achieves (next a) t after) : Achieves (rule >>= next) s after := by
  refine Leads.bind (Leads.mono first ?_ fun _ _ broken => broken)
  rintro a t ⟨errors, holds⟩
  refine Leads.mono (second a t holds) ?_ fun _ _ broken => broken
  rintro b u ⟨errors', holds'⟩
  exact ⟨errors'.trans errors, holds'⟩

theorem mono (first : Achieves rule s result) (imp : ∀ a t, result a t → result' a t) :
    Achieves rule s result' :=
  Leads.mono first (fun a t holds => ⟨holds.1, imp a t holds.2⟩) fun _ _ broken => broken

theorem of_eq {other : Rule α} (same : rule s = other s) (achieves : Achieves other s result) :
    Achieves rule s result := by
  unfold Achieves Leads at *
  rwa [same]

theorem of_pure {a : α} (holds : result a s) : Achieves (pure a) s result := ⟨rfl, holds⟩

theorem get_bind {next : Session → Rule β} (first : Achieves (next s) s after) :
    Achieves (get >>= next) s after := first

theorem of_modify {change : Session → Session} (errors : (change s).syntaxErrors = s.syntaxErrors) :
    Achieves (modify change) s fun _ t => t = change s :=
  ⟨errors, rfl⟩

theorem of_failFull (diagnostic : Diagnostic) (full : s.Full) :
    Achieves (failFull diagnostic) s result :=
  ⟨rfl, rfl, full⟩

theorem of_ask {read : SymbolTable → Except AccessError α} {a : α} (here : read s.symbols = .ok a) :
    Achieves (ask read) s fun b t => b = a ∧ t = s := by
  refine get_bind ?_
  rw [here]
  exact of_pure ⟨rfl, rfl⟩

theorem traced {R : Session → α → Session → Prop} {body : Rule α} {name : Nonterminal}
    (blind : ∀ s a t journal depth journal' depth', R { s with journal, depth } a t →
      R s a { t with journal := journal', depth := depth' })
    (inner : ∀ journal depth, Achieves body { s with journal, depth } (R { s with journal, depth })) :
    Achieves (Rule.traced name body) s (R s) := by
  have lead := inner (s.journal.note (.enter s.depth name)) (s.depth + 1)
  cases ran : body { s.note (.enter s.depth name) with depth := s.depth + 1 } with
  | ok a t =>
    obtain ⟨errors, result⟩ := Leads.ok lead ran
    exact Leads.of_ok (t := { t.note (.leave (t.depth - 1) name) with depth := t.depth - 1 })
      (by simp only [Rule.traced, ran]) ⟨errors, blind _ _ _ _ _ _ _ result⟩
  | error abort t =>
    obtain ⟨gaveUp, full⟩ := Leads.error lead ran
    exact Leads.of_error (t := { t.note (.leave (t.depth - 1) name) with depth := t.depth - 1 })
      (by simp only [Rule.traced, ran]) ⟨gaveUp, full⟩

end Achieves

/-- A rule that declares nothing achieves a result, from any session whose books are in order for the
scope. -/
def Succeeds (scope : Scope) (rule : Rule α) (s : Session) (result : α → Session → Prop) : Prop :=
  ∀ quote items, s.Orderly quote items scope →
    Achieves rule s fun a t => Moves False s t ∧ result a t

namespace Succeeds

variable {scope : Scope} {rule : Rule α} {next : α → Rule β} {result result' : α → Session → Prop}
variable {after : β → Session → Prop}

theorem bind (first : Succeeds scope rule s result)
    (second : ∀ a t, Moves False s t → result a t → Succeeds scope (next a) t after) :
    Succeeds scope (rule >>= next) s after := by
  intro quote items orderly
  refine (first quote items orderly).bind fun a t here => ?_
  obtain ⟨moves, holds⟩ := here
  refine (second a t moves holds quote items (moves.orderly orderly)).mono fun b u here => ?_
  exact ⟨moves.trans here.1, here.2⟩

theorem mono (first : Succeeds scope rule s result)
    (imp : ∀ a t, Moves False s t → result a t → result' a t) : Succeeds scope rule s result' :=
  fun quote items orderly => (first quote items orderly).mono fun a t here =>
    ⟨here.1, imp a t here.1 here.2⟩

theorem of_eq {other : Rule α} (same : rule s = other s) (succeeds : Succeeds scope other s result) :
    Succeeds scope rule s result :=
  fun quote items orderly => .of_eq same (succeeds quote items orderly)

theorem of_pure {a : α} (holds : result a s) : Succeeds scope (pure a) s result :=
  fun _ _ _ => .of_pure ⟨.refl, holds⟩

theorem of_orderly
    (succeeds : ∀ quote items, s.Orderly quote items scope → Succeeds scope rule s result) :
    Succeeds scope rule s result :=
  fun quote items orderly => succeeds quote items orderly quote items orderly

/-- An identifier that is looked at is a word. -/
theorem of_word {token : Token} {rest : List Token} (tokens : s.ahead = token :: rest)
    (is : token.kind = .identifier) (succeeds : token.text.IsWord → Succeeds scope rule s result) :
    Succeeds scope rule s result := by
  refine of_orderly fun quote items orderly => succeeds ?_
  obtain ⟨rfl, _⟩ := look_of_ahead tokens
  exact orderly.valid.words.look is

theorem get_bind {next : Session → Rule β} (first : Succeeds scope (next s) s after) :
    Succeeds scope (get >>= next) s after := first

theorem lookKind_bind {next : TokenKind → Rule β} (first : Succeeds scope (next s.look.kind) s after) :
    Succeeds scope (lookKind >>= next) s after := first

theorem nextQuad_bind {next : Int → Rule β} (first : Succeeds scope (next s.quads.target) s after) :
    Succeeds scope (nextQuad >>= next) s after := first

theorem of_move {change : Session → Session} (move : Move False s (change s))
    (errors : (change s).syntaxErrors = s.syntaxErrors) :
    Succeeds scope (modify change) s fun _ t => t = change s :=
  fun _ _ _ => (Achieves.of_modify errors).mono fun _ _ same => ⟨same ▸ .single move, same⟩

theorem of_failFull (diagnostic : Diagnostic) (full : s.Full) :
    Succeeds scope (failFull diagnostic) s result :=
  fun _ _ _ => .of_failFull diagnostic full

theorem of_advance (more : s.look.kind ≠ .endOfInput) :
    Succeeds scope advance s fun _ t => t = s.advance :=
  of_move (.advance s more) rfl

theorem of_expect {kind : TokenKind} (is : s.look.kind = kind) (proper : kind ≠ .endOfInput) :
    Succeeds scope (expect kind) s fun _ t => t = s.advance := by
  refine lookKind_bind ?_
  rw [if_pos is]
  exact of_advance (is ▸ proper)

theorem of_ask {read : SymbolTable → Except AccessError α} {a : α} (here : read s.symbols = .ok a) :
    Succeeds scope (ask read) s fun b t => b = a ∧ t = s :=
  fun _ _ _ => (Achieves.of_ask here).mono fun _ _ same => ⟨same.2 ▸ .refl, same⟩

theorem traced {R : Session → α → Session → Prop} {body : Rule α} {name : Nonterminal}
    {input : List Token}
    (blind : ∀ s a t journal depth journal' depth', R { s with journal, depth } a t →
      R s a { t with journal := journal', depth := depth' })
    (inner : ∀ s, s.ahead = input → Succeeds scope body s (R s)) (tokens : s.ahead = input) :
    Succeeds scope (Rule.traced name body) s (R s) := by
  intro quote items orderly
  refine Achieves.traced (R := fun s a t => Moves False s t ∧ R s a t) ?_ fun journal depth => ?_
  · rintro s a t journal depth journal' depth' ⟨moves, holds⟩
    have entered : Moves False s { s with journal, depth } := .single (.observe s _ _ _ _)
    exact ⟨(entered.trans moves).tail (.observe t _ _ _ _), blind _ _ _ _ _ _ _ holds⟩
  · exact inner _ tokens quote items ((Move.observe s journal depth _ _).orderly orderly)

end Succeeds

/-! ## Writing quads and symbols -/

variable {scope : Scope}

/-- A quad was written, as the one with number `i`. -/
structure Emits (s : Session) (q : Quad) (i : Nat) (t : Session) : Prop where
  room : s.quads.size < s.quads.capacity
  index : i = s.code.length
  code : t.code = s.code ++ [q]
  symbols : t.symbols = s.symbols
  temporaries : t.temporaries = s.temporaries
  ahead : t.ahead = s.ahead

theorem emit_succeeds {op : Opcode} {a b c : Int}
    (wf : Quad.WellFormed s.symbols.size ⟨op, a, b, c⟩)
    (target : op.stores = true → s.symbols.Assignable c) :
    Succeeds scope (emit op a b c) s (Emits s ⟨op, a, b, c⟩) := by
  refine .of_orderly fun quote items orderly => ?_
  have fits := orderly.valid.quads
  refine .get_bind ?_
  by_cases full : s.quads.size = s.quads.capacity
  · rw [show s.quads.next? = none by simp [QuadTable.next?, full]]
    exact .of_failFull _ (.inr full)
  · have room : s.quads.size < s.quads.capacity := by omega
    rw [QuadTable.next_of_room room]
    refine .bind (.of_move (.emit s _ wf target room) rfl) fun _ t _ same => .of_pure ?_
    subst same
    exact ⟨room, rfl, QuadTable.code_add room _, rfl, rfl, rfl⟩

/-- A jump got its target. -/
structure Patches (s : Session) (i : Nat) (target : Int) (t : Session) : Prop where
  quads : t.quads = s.quads.retarget i target
  symbols : t.symbols = s.symbols
  temporaries : t.temporaries = s.temporaries
  ahead : t.ahead = s.ahead

theorem patch_succeeds {i : Nat} {target : Int} (jump : s.JumpAt i) :
    Succeeds scope (patch i target) s fun _ => Patches s i target :=
  (Succeeds.of_move (.patch s i target jump) rfl).mono fun _ _ _ same =>
    same ▸ ⟨rfl, rfl, rfl, rfl⟩

/-- Nothing but the symbols has changed. -/
structure OnlySymbols (s t : Session) : Prop where
  code : t.code = s.code
  temporaries : t.temporaries = s.temporaries
  ahead : t.ahead = s.ahead

theorem symbol_succeeds {name : Text} {value : Value} (own : s.Own name value) :
    Succeeds scope (symbol name value) s fun i t => OnlySymbols s t ∧
      t.symbols.lookup? name = some i ∧
      (s.symbols.lookup? name = none → t.symbols.cells[i]? = some ⟨name, .constant, value⟩) := by
  refine .get_bind ?_
  obtain ⟨i, found, added⟩ | ⟨new, full, added⟩ | ⟨new, room, added⟩ :=
    s.symbols.add_cases name .constant value
  · rw [added]
    refine .bind (.of_move (.observe s s.journal s.depth s.warned s.declared) rfl) fun _ t _ same => ?_
    refine .of_pure (same ▸ ⟨⟨rfl, rfl, rfl⟩, found, fun new => ?_⟩)
    rw [found] at new
    cases new
  · rw [added]
    exact .of_failFull _ (.inl full)
  · rw [added]
    refine .bind (.of_move (.symbol s name value own new room) rfl) fun _ t _ same => .of_pure ?_
    subst same
    refine ⟨⟨rfl, rfl, rfl⟩, ?_, fun _ => ?_⟩
    · rw [SymbolTable.lookup_insert]
      exact if_pos (Text.SameName.refl _)
    · rw [SymbolTable.cells_insert, if_pos rfl]

theorem constant_succeeds {n : Int64} (unit : n = 1 ∨ n = -1) :
    Succeeds scope (constant n) s fun i t =>
      OnlySymbols s t ∧ t.symbols.lookup? (.ofInt n.toInt) = some i :=
  (symbol_succeeds (.inl ⟨n, unit, rfl, rfl⟩)).mono fun _ _ _ here => ⟨here.1, here.2.1⟩

/-- One temporary was made. -/
structure Makes (s : Session) (kind : Kind) (i : Nat) (t : Session) : Prop where
  code : t.code = s.code
  temporaries : t.temporaries = s.temporaries + 1
  ahead : t.ahead = s.ahead
  cell : t.symbols.Temporary (s.temporaries + 1) kind i

theorem temporary_succeeds (kind : Kind) :
    Succeeds scope (temporary kind) s (Makes s kind) := by
  refine .of_orderly fun quote items orderly => ?_
  obtain ⟨_, _, _, books⟩ := orderly
  have new := books.fresh (s.temporaries + 1) (Nat.lt_succ_self _)
  refine .bind (.of_move (.mint s) rfl) fun _ t _ same => .get_bind ?_
  subst same
  refine (symbol_succeeds (.inr ⟨rfl, kind, rfl⟩)).mono fun i t _ here => ?_
  obtain ⟨only, found, cell⟩ := here
  exact ⟨only.code, only.temporaries, only.ahead, found, cell new⟩

theorem resultKind_succeeds {a b : Nat} (left : a < s.symbols.size) (right : b < s.symbols.size) :
    Succeeds scope (resultKind a b) s fun kind t => t = s ∧ ∃ first second,
      s.symbols.kindAt a = some first ∧ s.symbols.kindAt b = some second ∧
        kind = arithmeticKind first second := by
  obtain ⟨cell, here⟩ := SymbolTable.exists_cell left
  obtain ⟨cell', here'⟩ := SymbolTable.exists_cell right
  have asked := SymbolTable.kind_of_cell here
  have asked' := SymbolTable.kind_of_cell here'
  have known : s.symbols.kindAt a = some cell.value.kind := by simp [SymbolTable.kindAt, here]
  have known' : s.symbols.kindAt b = some cell'.value.kind := by simp [SymbolTable.kindAt, here']
  refine .bind (.of_ask asked) fun kind t _ same => ?_
  obtain ⟨rfl, rfl⟩ := same
  split
  · rename_i integer
    refine .bind (.of_ask asked') fun kind u _ same => ?_
    obtain ⟨rfl, rfl⟩ := same
    split
    · rename_i integer'
      exact .of_pure ⟨rfl, _, _, known, known', by simp [arithmeticKind, integer, integer']⟩
    · rename_i other
      exact .of_pure ⟨rfl, _, _, known, known', by simp [arithmeticKind, other]⟩
  · rename_i other
    exact .of_pure ⟨rfl, _, _, known, known', by simp [arithmeticKind, other]⟩

/-- One arithmetic quad was written. -/
structure Computes (s : Session) (op : Opcode) (a b i : Nat) (t : Session) : Prop where
  code : t.code = s.code ++ [⟨op, a, b, i⟩]
  temporaries : t.temporaries = s.temporaries + 1
  ahead : t.ahead = s.ahead
  cell : t.symbols.Result (s.temporaries + 1) a b i

theorem arithmetic_succeeds {op : Opcode}
    (arithmetic : op = .add ∨ op = .sub ∨ op = .mul ∨ op = .div) {a b : Nat}
    (left : a < s.symbols.size) (right : b < s.symbols.size) :
    Succeeds scope (Rule.arithmetic op a b) s (Computes s op a b) := by
  refine .bind (resultKind_succeeds left right) fun kind t _ here => ?_
  obtain ⟨rfl, first, second, known, known', rfl⟩ := here
  refine .bind (temporary_succeeds _) fun i u moves made => ?_
  have grown := moves.extends
  have bound := SymbolTable.lt_size_of_cell made.cell.cell
  have wf := wellFormed_arithmetic arithmetic (Nat.lt_of_lt_of_le left grown.size_le)
    (Nat.lt_of_lt_of_le right grown.size_le) bound
  refine .bind (emit_succeeds wf fun _ => .temporary made.cell.lookup) fun _ v _ emits => .of_pure ?_
  exact ⟨by rw [emits.code, made.code], emits.temporaries.trans made.temporaries,
    emits.ahead.trans made.ahead, emits.symbols ▸
      ⟨first, second, grown.kindAt known, grown.kindAt known', made.cell⟩⟩

/-! ## Reading one token -/

/-- A token with a symbol was read. -/
structure Takes (s : Session) (name : Text) (rest : List Token) (i : Nat) (t : Session) : Prop where
  code : t.code = s.code
  temporaries : t.temporaries = s.temporaries
  ahead : t.ahead = rest
  found : t.symbols.lookup? name = some i

variable {token : Token} {rest : List Token}

theorem expect_succeeds (tokens : s.ahead = token :: rest) {kind : TokenKind}
    (is : token.kind = kind) :
    Succeeds scope (expect kind) s fun _ t => t = s.advance ∧ t.ahead = rest := by
  obtain ⟨here, more⟩ := look_of_ahead tokens
  refine (Succeeds.of_expect (here ▸ is) (is ▸ more)).mono fun _ t _ same => ⟨same, ?_⟩
  rw [same, advance_of_ahead tokens]

theorem advance_succeeds (tokens : s.ahead = token :: rest) :
    Succeeds scope advance s fun _ t => t = s.advance ∧ t.ahead = rest := by
  obtain ⟨here, more⟩ := look_of_ahead tokens
  refine (Succeeds.of_advance (here ▸ more)).mono fun _ t _ same => ⟨same, ?_⟩
  rw [same, advance_of_ahead tokens]

theorem registered_succeeds (tokens : s.ahead = token :: rest)
    (is : token.kind.hasSymbol = true) :
    Succeeds scope registered s (Takes s token.text rest) := by
  obtain ⟨rfl, more⟩ := look_of_ahead tokens
  refine .of_orderly fun quote items orderly => .get_bind ?_
  split
  · rename_i i found
    refine .bind (advance_succeeds tokens) fun _ t moves here => .of_pure ?_
    obtain ⟨rfl, ahead⟩ := here
    exact ⟨rfl, rfl, ahead, moves.extends.lookup _ _ found⟩
  · rename_i missing
    obtain ⟨i, found⟩ | full := orderly.registered is
    · rw [missing] at found
      cases found
    · exact .of_failFull _ (.inl full)

theorem literal_succeeds (tokens : s.ahead = token :: rest) (is : token.kind.hasSymbol = true) :
    Succeeds scope literal s (Takes s token.text rest) :=
  .traced (R := fun s => Takes s token.text rest)
    (fun _ _ _ _ _ _ _ takes => ⟨takes.code, takes.temporaries, takes.ahead, takes.found⟩)
    (fun _ tokens => registered_succeeds tokens is) tokens

theorem identifier_succeeds (tokens : s.ahead = token :: rest) (is : token.kind = .identifier) :
    Succeeds scope identifier s (Takes s token.text rest) := by
  obtain ⟨rfl, _⟩ := look_of_ahead tokens
  refine .lookKind_bind ?_
  rw [if_pos is]
  exact registered_succeeds tokens (by simp [is, TokenKind.hasSymbol])

theorem variableUse_succeeds (tokens : s.ahead = token :: rest) (is : token.kind = .identifier)
    (allowed : scope.Allows token.text) :
    Succeeds scope variableUse s (Takes s token.text rest) := by
  refine .traced (R := fun s => Takes s token.text rest)
    (fun _ _ _ _ _ _ _ takes => ⟨takes.code, takes.temporaries, takes.ahead, takes.found⟩)
    (fun s tokens => .get_bind ?_) tokens
  refine .bind (identifier_succeeds tokens is) fun i t _ takes => ?_
  refine .of_orderly fun quote items orderly => ?_
  obtain ⟨cell, stored⟩ := SymbolTable.exists_cell
    (orderly.valid.symbols.lookup_lt takes.found)
  have asked := SymbolTable.usage_of_cell stored
  refine .bind (.of_ask asked) fun usage u _ same => ?_
  obtain ⟨rfl, rfl⟩ := same
  have other : cell.usage ≠ .program := by
    intro named
    obtain ⟨program, undeclared⟩ := (orderly.usage takes.found stored).mp named
    exact allowed program undeclared
  rw [if_neg other]
  refine .get_bind ?_
  split
  · exact .bind (.of_move (.observe u _ _ _ _) rfl) fun _ v _ same => .of_pure
      (same ▸ ⟨takes.code, takes.temporaries, takes.ahead, takes.found⟩)
  · exact .of_pure takes

/-! ## Steps that are repeated -/

section Chains

variable {step : α → Rule (Option α)} {whole : Rule α} {left left' : List Token}
variable {result result' : α → Session → Prop}

/-- Some phrases have been read up to the tokens `left`: what holds of repeating the step from there
holds of the whole repetition. -/
def Chains (scope : Scope) (step : α → Rule (Option α)) (whole : Rule α) (s : Session)
    (left : List Token) (result : α → Session → Prop) : Prop :=
  ∀ after : α → Session → Prop,
    (∀ a t m, Moves False s t → result a t → left.length < m →
      Succeeds scope (iterate step m a) t after) →
    Succeeds scope whole s after

theorem Chains.of_first {first : Rule β} {start : β → α}
    (reads : Succeeds scope first s fun b => result (start b))
    (ahead : ∀ a t, result a t → t.ahead = left) :
    Chains scope step (do repeated step (start (← first))) s left result := by
  intro after continues
  refine .bind reads fun b t moves here => ?_
  refine .of_eq rfl (continues (start b) t _ moves here ?_)
  rw [← ahead _ t here]
  exact Nat.lt_succ_of_le t.length_ahead_le

theorem Chains.more (chains : Chains scope step whole s left result)
    (next : ∀ a t, Moves False s t → result a t →
      Succeeds scope (step a) t fun found u => ∃ b, found = some b ∧ result' b u)
    (shorter : left'.length < left.length) : Chains scope step whole s left' result' := by
  refine fun after continues => chains after fun a t m moves here enough => ?_
  obtain _ | m := m
  · omega
  refine .bind (next a t moves here) fun found u moves' here' => ?_
  obtain ⟨b, rfl, holds⟩ := here'
  exact continues b u m (moves.trans moves') holds (by omega)

theorem Chains.done (chains : Chains scope step whole s left result)
    (next : ∀ a t, Moves False s t → result a t →
      Succeeds scope (step a) t fun found u => found = none ∧ u = t) :
    Succeeds scope whole s result := by
  refine chains result fun a t m moves here enough => ?_
  obtain _ | m := m
  · omega
  refine .bind (next a t moves here) fun found u _ same => ?_
  obtain ⟨rfl, rfl⟩ := same
  exact .of_pure here

end Chains

end Rule

end MiniPascal
