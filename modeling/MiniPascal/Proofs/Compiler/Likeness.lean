import MiniPascal.Proofs.Compiler.Composition
import MiniPascal.Proofs.Compiler.Tokens
import Mathlib.Data.Option.Basic

/-! # Compilations that go alike

A compilation depends on the kinds of the tokens and on which names are the same, but neither on how the
names are spelled nor on what is watched. Two sessions are alike if they agree on all that the grammar
rules depend on. From sessions that are alike, every grammar rule comes to the same end and leaves
sessions behind that are alike.
-/

namespace MiniPascal

/-- When two spellings count as the same: they differ at most in case. -/
structure Spelling (Same : Text → Text → Prop) : Prop where
  refl : ∀ name, Same name name
  fold : ∀ {name other}, Same name other → name.SameName other

theorem Spelling.exact : Spelling Eq := ⟨fun _ => rfl, fun same => same ▸ .refl _⟩

theorem Spelling.anyCase : Spelling Text.SameName := ⟨.refl, id⟩

variable {Same : Text → Text → Prop}

/-! ## Tables -/

/-- Cells that differ at most in the spelling of their names. -/
structure Cell.Like (Same : Text → Text → Prop) (cell other : Cell) : Prop where
  name : Same cell.name other.name
  usage : cell.usage = other.usage
  value : cell.value = other.value

/-- Tables that differ at most in the spelling of the names. -/
structure SymbolTable.Like (Same : Text → Text → Prop) (table other : SymbolTable) : Prop where
  capacity : table.capacity = other.capacity
  index : table.index = other.index
  cells : List.Forall₂ (Cell.Like Same) table.cells.toList other.cells.toList

namespace SymbolTable

/-- Changes of tables that both fail for the same reason, or lead to tables that are alike. -/
inductive WritesAlike (Same : Text → Text → Prop) :
    Except AccessError SymbolTable → Except AccessError SymbolTable → Prop
  | ok {table other : SymbolTable} (like : table.Like Same other) :
      WritesAlike Same (.ok table) (.ok other)
  | error (error : AccessError) : WritesAlike Same (.error error) (.error error)

namespace Like

variable {table other : SymbolTable}

theorem size (like : table.Like Same other) : table.size = other.size := by
  have same := like.cells.length_eq
  rwa [Array.length_toList, Array.length_toList] at same

theorem lookup (spelling : Spelling Same) (like : table.Like Same other) {name name' : Text}
    (same : Same name name') : table.lookup? name = other.lookup? name' := by
  unfold lookup?
  rw [like.index, show name.fold = _ from spelling.fold same]

theorem insert (spelling : Spelling Same) (like : table.Like Same other) {cell cell' : Cell}
    (same : cell.Like Same cell') : (table.insert cell).Like Same (other.insert cell') where
  capacity := like.capacity
  index := by
    unfold SymbolTable.insert
    rw [like.index, like.size, show cell.name.fold = _ from spelling.fold same.name]
  cells := by
    simp only [SymbolTable.insert, Array.toList_push]
    exact List.rel_append like.cells (.cons same .nil)

theorem add (spelling : Spelling Same) (like : table.Like Same other) {cell cell' : Cell}
    (same : cell.Like Same cell') :
    (table.add cell.name cell.usage cell.value).1 = (other.add cell'.name cell'.usage cell'.value).1 ∧
      (table.add cell.name cell.usage cell.value).2.Like Same
        (other.add cell'.name cell'.usage cell'.value).2 := by
  unfold SymbolTable.add
  rw [like.lookup spelling same.name]
  cases other.lookup? cell'.name with
  | some i => exact ⟨rfl, like⟩
  | none =>
    by_cases full : other.size = other.capacity
    · have full' : table.size = table.capacity := by rw [like.size, like.capacity, full]
      rw [if_pos full, if_pos full']
      exact ⟨rfl, like⟩
    · have room : ¬ table.size = table.capacity := by rwa [like.size, like.capacity]
      rw [if_neg full, if_neg room]
      exact ⟨congrArg some like.size, like.insert spelling same⟩

theorem modify (like : table.Like Same other) (i : Nat) (usage : Usage) (value : Value) :
    (table.modify i usage value).Like Same (other.modify i usage value) where
  capacity := like.capacity
  index := like.index
  cells := by
    simp only [SymbolTable.modify, Array.toList_modify]
    refine forall₂_modify like.cells ?_ i
    exact fun cell cell' same => ⟨same.name, rfl, rfl⟩

/-- Both tables have a cell at an index, or none of them. -/
theorem cell_cases (like : table.Like Same other) (i : Int) :
    (table.cell? i = none ∧ other.cell? i = none) ∨
      ∃ cell cell', table.cell? i = some cell ∧ other.cell? i = some cell' ∧ cell.Like Same cell' := by
  unfold cell?
  split
  · exact .inl ⟨rfl, rfl⟩
  · rw [← Array.getElem?_toList, ← Array.getElem?_toList]
    exact getElem_of_forall₂ like.cells _

/-- What is read from a cell, but not its name. -/
theorem read (like : table.Like Same other) (i : Int) {α : Type} {part : Cell → α}
    (blind : ∀ cell cell', cell.Like Same cell' → part cell = part cell') :
    (table.cell i).map part = (other.cell i).map part := by
  unfold SymbolTable.cell
  obtain ⟨none, none'⟩ | ⟨cell, cell', here, here', same⟩ := like.cell_cases i
  · rw [none, none', like.size]
  · rw [here, here']
    exact congrArg Except.ok (blind cell cell' same)

theorem kind (like : table.Like Same other) (i : Int) : table.kind i = other.kind i :=
  like.read i fun _ _ same => by rw [same.value]

theorem usage (like : table.Like Same other) (i : Int) : table.usage i = other.usage i :=
  like.read i fun _ _ same => same.usage

theorem value (like : table.Like Same other) (i : Int) : table.value i = other.value i :=
  like.read i fun _ _ same => same.value

/-- Names are read alike, but may differ. -/
theorem name (like : table.Like Same other) (i : Int) :
    (∃ error, table.name i = .error error ∧ other.name i = .error error) ∨
      ∃ name name', table.name i = .ok name ∧ other.name i = .ok name' := by
  unfold SymbolTable.name SymbolTable.cell
  obtain ⟨none, none'⟩ | ⟨cell, cell', here, here', _⟩ := like.cell_cases i
  · rw [none, none', like.size]
    exact .inl ⟨_, rfl, rfl⟩
  · rw [here, here']
    exact .inr ⟨_, _, rfl, rfl⟩

theorem update (like : table.Like Same other) (i : Int) (usage : Usage) (value : Value) :
    WritesAlike Same (table.update i usage value) (other.update i usage value) := by
  unfold SymbolTable.update
  obtain ⟨none, none'⟩ | ⟨cell, cell', here, here', same⟩ := like.cell_cases i
  · rw [none, none']
    exact .ok like
  · rw [here, here']
    dsimp only
    rw [same.value]
    split
    · exact .ok (like.modify ..)
    · exact .error _

theorem declare (like : table.Like Same other) (i : Int) (kind : Kind) :
    WritesAlike Same (table.declare i kind) (other.declare i kind) := by
  unfold SymbolTable.declare SymbolTable.cell
  obtain ⟨none, none'⟩ | ⟨cell, cell', here, here', same⟩ := like.cell_cases i
  · rw [none, none', like.size]
    exact .error _
  · rw [here, here']
    exact .ok (like.modify ..)

end Like

end SymbolTable

/-! ## Sessions -/

/-- Items whose tokens are of one kind and differ at most in their spelling. -/
structure Scanned.Like (Same : Text → Text → Prop) (item other : Scanned) : Prop where
  kind : item.token.kind = other.token.kind
  text : Same item.token.text other.token.text
  errors : item.errors = other.errors
  cell : Option.Rel (Cell.Like Same) item.cell? other.cell?

/-- Sessions that agree on all that the grammar rules depend on. -/
structure Session.Like (Same : Text → Text → Prop) (s t : Session) : Prop where
  unread : List.Forall₂ (Scanned.Like Same) s.unread t.unread
  symbols : s.symbols.Like Same t.symbols
  lexicalErrors : s.lexicalErrors = t.lexicalErrors
  kind : s.look.kind = t.look.kind
  text : Same s.look.text t.look.text
  quads : s.quads = t.quads
  temporaries : s.temporaries = t.temporaries
  declared : s.declared = t.declared
  warned : s.warned = t.warned
  syntaxErrors : s.syntaxErrors = t.syntaxErrors
  exhausted : s.exhausted = t.exhausted

namespace Session.Like

variable {s t : Session}

theorem length_unread (like : s.Like Same t) : s.unread.length = t.unread.length :=
  like.unread.length_eq

theorem noted (like : s.Like Same t) (event event' : Event) :
    (s.note event).Like Same (t.note event') := { like with }

theorem advance (spelling : Spelling Same) (like : s.Like Same t) : s.advance.Like Same t.advance := by
  have items := like.unread
  cases unread : s.unread with
  | nil =>
    rw [unread] at items
    have unread' : t.unread = [] := List.forall₂_nil_left_iff.mp items
    unfold Session.advance
    rw [Lexing.next_nil unread, Lexing.next_nil unread']
    exact { like with kind := rfl, text := spelling.refl _ }
  | cons item rest =>
    rw [unread] at items
    obtain ⟨item', rest', same, later, unread'⟩ := List.forall₂_cons_left_iff.mp items
    obtain ⟨token, left, symbols, errors⟩ := Lexing.next_cons unread
    obtain ⟨token', left', symbols', errors'⟩ := Lexing.next_cons unread'
    -- the token registers its symbol in both tables alike
    have registers : SymbolTable.Like Same s.next.2.symbols t.next.2.symbols ∧
        s.next.2.lexicalErrors = t.next.2.lexicalErrors := by
      have cells := same.cell
      unfold Lexing.refuses at errors errors'
      generalize item.cell? = cell, item'.cell? = cell' at *
      rw [symbols, symbols', errors, errors', like.lexicalErrors, same.errors]
      cases cells with
      | none => exact ⟨like.symbols, rfl⟩
      | some cells =>
        obtain ⟨index, table⟩ := like.symbols.add spelling cells
        refine ⟨table, ?_⟩
        simp only [index]
    exact {
      like with
      unread := by
        change List.Forall₂ _ s.next.2.unread t.next.2.unread
        rwa [left, left']
      symbols := registers.1
      lexicalErrors := registers.2
      kind := by
        change (s.next.1.getD .endOfInput).kind = (t.next.1.getD .endOfInput).kind
        rw [token, token', same.kind]
      text := by
        change Same (s.next.1.getD .endOfInput).text (t.next.1.getD .endOfInput).text
        rw [token, token']
        exact same.text }

end Session.Like

/-! ## Rules -/

namespace Rule

variable {α β : Type} {s t : Session}

/-- Outcomes that are the same, with sessions that are alike. -/
inductive EndsAlike (Same : Text → Text → Prop) :
    EStateM.Result Abort Session α → EStateM.Result Abort Session α → Prop
  | ok {a : α} {s t : Session} (like : s.Like Same t) : EndsAlike Same (.ok a s) (.ok a t)
  | error {abort : Abort} {s t : Session} (like : s.Like Same t) :
      EndsAlike Same (.error abort s) (.error abort t)

/-- From sessions that are alike, the rule comes to the same end. -/
def Uniform (Same : Text → Text → Prop) (x : Rule α) : Prop :=
  ∀ {s t : Session}, s.Like Same t → EndsAlike Same (x s) (x t)

theorem EndsAlike.bind {x y : Rule α} {f g : α → Rule β} (first : EndsAlike Same (x s) (y t))
    (second : ∀ a {s t : Session}, s.Like Same t → EndsAlike Same (f a s) (g a t)) :
    EndsAlike Same ((x >>= f) s) ((y >>= g) t) := by
  generalize ran : x s = result, ran' : y t = result' at first
  cases first with
  | ok like =>
    rw [bind_of_ok ran, bind_of_ok ran']
    exact second _ like
  | error like =>
    rw [bind_of_error ran, bind_of_error ran']
    exact .error like

theorem EndsAlike.traced {rule : Nonterminal} {x : Rule α} (inner : Uniform Same x) :
    Uniform Same (traced rule x) := by
  intro s t like
  have first : EndsAlike Same (x { s.note (.enter s.depth rule) with depth := s.depth + 1 })
      (x { t.note (.enter t.depth rule) with depth := t.depth + 1 }) := inner { like with }
  generalize ran : x { s.note (.enter s.depth rule) with depth := s.depth + 1 } = result,
    ran' : x { t.note (.enter t.depth rule) with depth := t.depth + 1 } = result' at first
  cases first with
  | ok like =>
    rw [traced_of_ok ran, traced_of_ok ran']
    exact .ok { like with }
  | error like =>
    rw [traced_of_error ran, traced_of_error ran']
    exact .error { like with }

/-! ### Basic rules -/

/-- Errors may be told differently. -/
theorem fail_alike (like : s.Like Same t) (diagnostic diagnostic' : Diagnostic) :
    EndsAlike Same ((fail diagnostic : Rule α) s) ((fail diagnostic' : Rule α) t) :=
  .error { like with syntaxErrors := congrArg (· + 1) like.syntaxErrors }

theorem failFull_alike (like : s.Like Same t) (diagnostic diagnostic' : Diagnostic) :
    EndsAlike Same ((failFull diagnostic : Rule α) s) ((failFull diagnostic' : Rule α) t) :=
  .error { like with syntaxErrors := congrArg (· + 1) like.syntaxErrors, exhausted := rfl }

theorem lookKind_uniform : Uniform Same lookKind := by
  intro s t like
  change EndsAlike Same (.ok s.look.kind s) (.ok t.look.kind t)
  rw [like.kind]
  exact .ok like

theorem failExpecting_uniform (wanted : Text) : Uniform Same (failExpecting wanted : Rule α) :=
  fun like => fail_alike like _ _

theorem ask_alike (like : s.Like Same t) {read : SymbolTable → Except AccessError α}
    (same : read s.symbols = read t.symbols) : EndsAlike Same (ask read s) (ask read t) := by
  cases answer : read t.symbols with
  | ok a =>
    rw [ask_of_ok answer, ask_of_ok (same.trans answer)]
    exact .ok like
  | error error =>
    rw [ask_of_error answer, ask_of_error (same.trans answer)]
    exact .error like

theorem change_alike (like : s.Like Same t) {write : SymbolTable → Except AccessError SymbolTable}
    (same : SymbolTable.WritesAlike Same (write s.symbols) (write t.symbols)) :
    EndsAlike Same (change write s) (change write t) := by
  unfold change
  generalize wrote : write s.symbols = result, wrote' : write t.symbols = result' at same
  cases same with
  | ok tables =>
    rw [bind_of_ok (ask_of_ok wrote), bind_of_ok (ask_of_ok wrote')]
    exact .ok { like with symbols := tables }
  | error error =>
    rw [bind_of_error (ask_of_error wrote), bind_of_error (ask_of_error wrote')]
    exact .error like

theorem emit_uniform (op : Opcode) (a b c : Int) : Uniform Same (emit op a b c) := by
  intro s t like
  unfold emit
  rw [get_bind_apply, get_bind_apply, like.quads]
  cases t.quads.next? with
  | none => exact failFull_alike like _ _
  | some i => exact .ok { like with quads := congrArg (QuadTable.add · ⟨op, a, b, c⟩) like.quads }

theorem nextQuad_uniform : Uniform Same nextQuad := by
  intro s t like
  change EndsAlike Same (.ok s.quads.target s) (.ok t.quads.target t)
  rw [like.quads]
  exact .ok like

theorem patch_uniform (i : Nat) (target : Int) : Uniform Same (patch i target) :=
  fun like => .ok { like with quads := congrArg (·.retarget i target) like.quads }

theorem symbol_uniform (spelling : Spelling Same) (name : Text) (value : Value) :
    Uniform Same (symbol name value) := by
  intro s t like
  obtain ⟨index, table⟩ := @SymbolTable.Like.add _ _ _ spelling like.symbols ⟨name, .constant, value⟩
    ⟨name, .constant, value⟩ ⟨spelling.refl _, rfl, rfl⟩
  unfold symbol
  rw [get_bind_apply, get_bind_apply]
  dsimp only at index table
  generalize s.symbols.add name .constant value = added, t.symbols.add name .constant value = added'
    at index table ⊢
  obtain ⟨i, symbols⟩ := added
  obtain ⟨i', symbols'⟩ := added'
  obtain rfl : i = i' := index
  cases i with
  | none => exact failFull_alike like _ _
  | some i => exact .ok { like with symbols := table }

theorem temporary_uniform (spelling : Spelling Same) (kind : Kind) : Uniform Same (temporary kind) := by
  intro s t like
  have ran : temporary kind t = symbol (temporaryName (s.temporaries + 1)) (.zero kind)
      { t with temporaries := t.temporaries + 1 } := by
    rw [like.temporaries]
    rfl
  rw [ran]
  exact symbol_uniform spelling _ _ { like with temporaries := congrArg (· + 1) like.temporaries }

theorem advance_uniform (spelling : Spelling Same) : Uniform Same advance :=
  fun like => .ok (like.advance spelling)

theorem registered_uniform (spelling : Spelling Same) : Uniform Same registered := by
  intro s t like
  unfold registered
  rw [get_bind_apply, get_bind_apply, like.symbols.lookup spelling like.text]
  cases t.symbols.lookup? t.look.text with
  | none => exact failFull_alike like _ _
  | some i => exact .ok (like.advance spelling)

theorem identifier_uniform (spelling : Spelling Same) : Uniform Same identifier := by
  intro s t like
  refine .bind (lookKind_uniform like) fun kind s t like => ?_
  split
  · exact registered_uniform spelling like
  · exact failExpecting_uniform _ like

theorem variableUse_uniform (spelling : Spelling Same) : Uniform Same variableUse := by
  refine EndsAlike.traced fun {s t} like => ?_
  rw [get_bind_apply, get_bind_apply]
  refine .bind (identifier_uniform spelling like) fun i s t like => ?_
  refine .bind (ask_alike like (like.symbols.usage i)) fun usage s t like => ?_
  split
  · exact fail_alike like _ _
  · rw [get_bind_apply, get_bind_apply, like.declared, like.warned]
    split
    · exact .ok { like with warned := rfl }
    · exact .ok like

theorem nameProgram_uniform (i : Nat) :
    Uniform Same (ask (·.value i) >>= fun value => change (·.update i .program value)) := by
  intro s t like
  exact .bind (ask_alike like (like.symbols.value i)) fun value s t like =>
    change_alike like (like.symbols.update ..)

theorem declare_uniform (kind : Kind) (i : Nat) : Uniform Same (declare kind i) := by
  intro s t like
  have declares {s t : Session} (like : s.Like Same t) :
      EndsAlike Same (change (·.declare i kind) { s with declared := i :: s.declared })
        (change (·.declare i kind) { t with declared := i :: t.declared }) := by
    refine change_alike ?_ (like.symbols.declare ..)
    exact { like with declared := congrArg (i :: ·) like.declared }
  unfold declare
  rw [get_bind_apply, get_bind_apply, like.declared]
  split
  · obtain ⟨error, crash, crash'⟩ | ⟨name, name', answer, answer'⟩ := like.symbols.name i
    · rw [bind_of_error (ask_of_error crash), bind_of_error (ask_of_error crash')]
      exact .error like
    · rw [bind_of_ok (ask_of_ok answer), bind_of_ok (ask_of_ok answer')]
      exact declares (like.noted (.report (.declaredAgain name)) (.report (.declaredAgain name')))
  · exact declares like

theorem Basic.uniform (spelling : Spelling Same) {x : Rule α} (basic : Basic x) : Uniform Same x := by
  cases basic with
  | lookKind => exact lookKind_uniform
  | advance => exact advance_uniform spelling
  | failExpecting wanted => exact failExpecting_uniform wanted
  | emit op a b c => exact emit_uniform op a b c
  | nextQuad => exact nextQuad_uniform
  | patch i target => exact patch_uniform i target
  | constant n => exact symbol_uniform spelling _ _
  | temporary kind => exact temporary_uniform spelling kind
  | kindOf i => exact fun like => ask_alike like (like.symbols.kind i)
  | registered => exact registered_uniform spelling
  | variableUse => exact variableUse_uniform spelling
  | nameProgram i => exact nameProgram_uniform i
  | declare kind i => exact declare_uniform kind i

/-! ### All rules -/

theorem skipTokens_alike (spelling : Spelling Same) (like : s.Like Same t) (fuel skipped : Nat) :
    (skipTokens fuel skipped s).1 = (skipTokens fuel skipped t).1 ∧
      (skipTokens fuel skipped s).2.Like Same (skipTokens fuel skipped t).2 := by
  induction fuel generalizing skipped s t with
  | zero => exact ⟨rfl, like⟩
  | succ fuel ih =>
    unfold skipTokens
    rw [like.kind]
    split
    · exact ⟨rfl, like⟩
    · exact ih (like.advance spelling) _

theorem resync_uniform (spelling : Spelling Same) : Uniform Same resync := by
  intro s t like
  obtain ⟨_, skipped⟩ := skipTokens_alike spelling like (t.unread.length + 2) 0
  unfold resync
  rw [like.exhausted, like.length_unread]
  split
  · exact .ok like
  · dsimp only
    rw [skipped.kind]
    split
    · exact .ok (skipped.noted _ _)
    · exact .ok (skipped.noted _ _)

theorem recovering_uniform (spelling : Spelling Same) {body again : Rule Unit}
    (inner : Uniform Same body) (later : Uniform Same again) : Uniform Same (recovering body again) := by
  intro s t like
  have first : EndsAlike Same (body s) (body t) := inner like
  generalize ran : body s = result, ran' : body t = result' at first
  cases first with
  | ok like =>
    rw [recovering_of_ok ran, recovering_of_ok ran']
    exact .ok like
  | @error abort _ _ like =>
    by_cases gaveUp : abort = .gaveUp
    · subst gaveUp
      rw [recovering_of_gaveUp ran, recovering_of_gaveUp ran']
      refine .bind (resync_uniform spelling like) fun goesOn s t like => ?_
      split
      · exact later like
      · exact .error like
    · rw [recovering_of_abort ran gaveUp, recovering_of_abort ran' gaveUp]
      exact .error like

/-- Every rule goes alike from sessions that are alike. -/
theorem Composed.uniform (spelling : Spelling Same) {x : Rule α} (composed : Composed x) :
    Uniform Same x := by
  induction composed with
  | basic is => exact is.uniform spelling
  | pure a => exact fun like => .ok like
  | outOfFuel => exact fun like => .error like
  | bind _ _ first second => exact fun like => .bind (first like) fun a _ _ => second a
  | traced rule _ inner => exact EndsAlike.traced inner
  | @bounded _ body _ inner =>
    intro s t like
    change EndsAlike Same (body (s.unread.length + 2) s) (body (t.unread.length + 2) t)
    rw [like.length_unread]
    exact inner _ like
  | recovering _ _ inner later => exact recovering_uniform spelling inner later

end Rule

/-! ## Compilations -/

/-- Compilations with the same verdict, the same quads, and tables that differ at most in the spelling of
the names. -/
structure Compilation.Like (Same : Text → Text → Prop) (first second : Compilation) : Prop where
  verdict : first.verdict = second.verdict
  quads : first.program.quads = second.program.quads
  symbols : first.program.symbols.Like Same second.program.symbols

theorem Rule.EndsAlike.compilation {result result' : EStateM.Result Abort Session Unit}
    (alike : EndsAlike Same result result') :
    (Compilation.ofOutcome result).Like Same (.ofOutcome result') := by
  have finish {s t : Session} (like : s.Like Same t) : s.finish.Like Same t.finish := by
    refine ⟨?_, like.quads, like.symbols⟩
    dsimp only [Session.finish]
    rw [like.syntaxErrors, like.lexicalErrors]
  cases alike with
  | ok like => exact finish like
  | @error abort _ _ like =>
    cases abort with
    | gaveUp => exact finish like
    | crashed error => exact ⟨rfl, like.quads, like.symbols⟩
    | outOfFuel => exact ⟨rfl, like.quads, like.symbols⟩

/-- Compilations of texts that are scanned alike, with the same capacities. -/
theorem compile_alike (spelling : Spelling Same) {options options' : CompileOptions}
    {input input' : Input} (symbols : options.maxSymbols = options'.maxSymbols)
    (quads : options.maxQuads = options'.maxQuads)
    (items : List.Forall₂ (Scanned.Like Same) (Session.start options input).unread
      (Session.start options' input').unread) :
    (compile options input).Like Same (compile options' input') := by
  have start : (Session.start options input).Like Same (Session.start options' input') := {
    unread := items
    symbols := ⟨symbols, rfl, .nil⟩
    lexicalErrors := rfl
    kind := rfl
    text := spelling.refl _
    quads := congrArg QuadTable.empty quads
    temporaries := rfl
    declared := rfl
    warned := rfl
    syntaxErrors := rfl
    exhausted := rfl }
  have whole : Rule.Composed Rule.wholeProgram := .move .program
  rw [compile_eq, compile_eq]
  exact (whole.uniform spelling start).compilation

end MiniPascal
