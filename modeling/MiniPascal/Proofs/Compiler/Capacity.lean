import MiniPascal.Proofs.Compiler.Composition
import MiniPascal.Proofs.Compiler.Termination

/-! # Capacities never change a program

A compilation looks at the capacity of a table only where something is to be stored. So if nothing
was refused, the same compilation with other capacities that are large enough goes through the same
steps, and leaves the same symbols and quads behind. `Portable` states this of a rule and of both of
its outcomes.

Two things make it delicate. A refused symbol stops nothing, but it is counted as an error, so a
compilation without errors had no symbol refused. And a full table of quads has no next quad to jump
to: nothing is refused then, but the target of a jump is wrong. Such a table has no room for the quad
that ends the program, so only that last quad may be the one that fills the table. The slack in
`Ample` and `Fits` is for it.
-/

namespace MiniPascal

/-! ## Tables of another capacity -/

/-- A table with the same cells and another capacity. -/
def SymbolTable.resized (table : SymbolTable) (capacity : Nat) : SymbolTable := { table with capacity }

/-- A table with the same quads and another capacity. -/
def QuadTable.resized (table : QuadTable) (capacity : Nat) : QuadTable := { table with capacity }

namespace SymbolTable

variable (table : SymbolTable) (capacity : Nat)

theorem update_resized (i : Int) (usage : Usage) (value : Value) :
    (table.resized capacity).update i usage value =
      (table.update i usage value).map (·.resized capacity) := by
  have here : (table.resized capacity).cell? i = table.cell? i := rfl
  unfold update
  rw [here]
  cases table.cell? i with
  | none => rfl
  | some cell =>
    dsimp only
    split <;> rfl

theorem declare_resized (i : Int) (kind : Kind) :
    (table.resized capacity).declare i kind = (table.declare i kind).map (·.resized capacity) := by
  unfold declare
  change (table.cell i).map _ = _
  cases table.cell i <;> rfl

theorem add_resized_of_some {i : Nat} {name : Text} (usage : Usage) (value : Value)
    (found : table.lookup? name = some i) :
    (table.resized capacity).add name usage value = (some i, table.resized capacity) := by
  have found' : (table.resized capacity).lookup? name = some i := found
  simp only [add, found']

theorem add_resized_of_none {name : Text} (usage : Usage) (value : Value)
    (new : table.lookup? name = none) (room : table.size < capacity) :
    (table.resized capacity).add name usage value =
      (some table.size, (table.insert ⟨name, usage, value⟩).resized capacity) := by
  have new' : (table.resized capacity).lookup? name = none := new
  have other : (table.resized capacity).size ≠ (table.resized capacity).capacity := by
    change table.size ≠ capacity
    omega
  simp only [add, new', if_neg other]
  rfl

end SymbolTable

namespace QuadTable

variable (table : QuadTable) (capacity : Nat)

theorem add_resized (q : Quad) (room : table.size < table.capacity) (room' : table.size < capacity) :
    (table.resized capacity).add q = (table.add q).resized capacity := by
  have room'' : (table.resized capacity).size < (table.resized capacity).capacity := room'
  simp only [add, if_pos room, if_pos room'']
  rfl

theorem retarget_resized (i c : Int) :
    (table.resized capacity).retarget i c = (table.retarget i c).resized capacity := by
  unfold retarget
  split <;> rfl

end QuadTable

namespace Session

/-- The same session with tables of other capacities. -/
def resized (s : Session) (symbols quads : Nat) : Session :=
  { s with symbols := s.symbols.resized symbols, quads := s.quads.resized quads }

/-- Nothing was refused so far: there is room for quads, but for a slack, and if the symbol table is
full then no error was reported. -/
def Ample (slack : Nat) (s : Session) : Prop :=
  s.quads.size < s.quads.capacity + slack ∧ (s.symbols.size < s.symbols.capacity ∨ s.Clean)

/-- What is stored fits other capacities, with the same slack. -/
def Fits (slack symbols quads : Nat) (s : Session) : Prop :=
  s.symbols.size ≤ symbols ∧ s.quads.size < quads + slack

variable {slack symbols quads : Nat} {s t : Session}

/-- How the tables and the error counts of two sessions compare if something was added. -/
structure Grows (s t : Session) : Prop where
  symbols : s.symbols.size ≤ t.symbols.size
  symbolCapacity : t.symbols.capacity = s.symbols.capacity
  quads : s.quads.size ≤ t.quads.size
  quadCapacity : t.quads.capacity = s.quads.capacity
  syntaxErrors : s.syntaxErrors ≤ t.syntaxErrors
  lexicalErrors : s.lexicalErrors ≤ t.lexicalErrors

theorem Grows.refl : Grows s s :=
  ⟨Nat.le_refl _, rfl, Nat.le_refl _, rfl, Nat.le_refl _, Nat.le_refl _⟩

theorem Grows.note (grows : Grows s t) (event : Event) : Grows s (t.note event) :=
  ⟨grows.symbols, grows.symbolCapacity, grows.quads, grows.quadCapacity, grows.syntaxErrors,
    grows.lexicalErrors⟩

theorem Grows.ample (grows : Grows s t) (ample : t.Ample slack) : s.Ample slack := by
  obtain ⟨symbols, symbolCapacity, quads, quadCapacity, syntaxErrors, lexicalErrors⟩ := grows
  unfold Ample Clean at *
  omega

theorem Grows.fits (grows : Grows s t) (fits : t.Fits slack symbols quads) :
    s.Fits slack symbols quads :=
  ⟨Nat.le_trans grows.symbols fits.1, Nat.lt_of_le_of_lt grows.quads fits.2⟩

end Session

namespace Rule

open Session

variable {α β : Type} {slack : Nat} {s t : Session}

/-- If nothing was refused on the way to `t`, then the rule goes the same way with all other
capacities that what is stored in `t` fits. -/
def Reproduces (slack : Nat) (rule : Rule α) (s t : Session)
    (outcome : Session → EStateM.Result Abort Session α) : Prop :=
  t.Ample slack → s.Ample 0 ∧ ∀ symbols quads, t.Fits slack symbols quads →
    s.Fits 0 symbols quads ∧ rule (s.resized symbols quads) = outcome (t.resized symbols quads)

/-- Whatever comes of a rule is reproduced with other capacities. Only a rule that returns may have
filled the table of quads, if it has slack. -/
def Portable (slack : Nat) (rule : Rule α) (s : Session) : Prop :=
  Leads rule s (fun a t => Reproduces slack rule s t (.ok a))
    fun abort t => Reproduces 0 rule s t (.error abort)

theorem Reproduces.of_grows {rule : Rule α} {outcome : Session → EStateM.Result Abort Session α}
    (grows : Grows s t)
    (same : t.Ample 0 → ∀ symbols quads, t.Fits 0 symbols quads →
      rule (s.resized symbols quads) = outcome (t.resized symbols quads)) :
    Reproduces 0 rule s t outcome := by
  intro ample
  constructor
  · exact grows.ample ample
  · intro symbols quads fits
    exact ⟨grows.fits fits, same ample symbols quads fits⟩

/-- A rule that ends the way another one does. -/
theorem Reproduces.map {rule : Rule α} {rule' : Rule β}
    {outcome : Session → EStateM.Result Abort Session α}
    {outcome' : Session → EStateM.Result Abort Session β}
    (replays : Reproduces slack rule s t outcome)
    (same : ∀ u v, rule u = outcome v → rule' u = outcome' v) : Reproduces slack rule' s t outcome' := by
  intro ample
  obtain ⟨ample', ran⟩ := replays ample
  refine ⟨ample', fun symbols quads fits => ?_⟩
  obtain ⟨fits', ran'⟩ := ran symbols quads fits
  exact ⟨fits', same _ _ ran'⟩

/-- A rule that runs one rule after another. -/
theorem Reproduces.trans {γ : Type} {u : Session} {rule₁ : Rule α} {rule₂ : Rule β} {rule : Rule γ}
    {outcome₁ : Session → EStateM.Result Abort Session α}
    {outcome₂ : Session → EStateM.Result Abort Session β}
    {outcome : Session → EStateM.Result Abort Session γ}
    (first : Reproduces 0 rule₁ s t outcome₁) (second : Reproduces slack rule₂ t u outcome₂)
    (same : ∀ p q r, rule₁ p = outcome₁ q → rule₂ q = outcome₂ r → rule p = outcome r) :
    Reproduces slack rule s u outcome := by
  intro ample
  obtain ⟨ample', ran₂⟩ := second ample
  obtain ⟨ample'', ran₁⟩ := first ample'
  refine ⟨ample'', fun symbols quads fits => ?_⟩
  obtain ⟨fits', here₂⟩ := ran₂ symbols quads fits
  obtain ⟨fits'', here₁⟩ := ran₁ symbols quads fits'
  exact ⟨fits'', same _ _ _ here₁ here₂⟩

namespace Portable

variable {rule : Rule α} {next : α → Rule β}

/-- One rule after another: the first one must leave room. -/
theorem bind (first : Portable 0 rule s) (second : ∀ a t, Portable slack (next a) t) :
    Portable slack (rule >>= next) s := by
  cases ran : rule s with
  | error abort t =>
    have replays := Leads.error first ran
    exact Leads.of_error (bind_of_error ran) (replays.map fun _ _ => bind_of_error)
  | ok a t =>
    have replays := Leads.ok first ran
    cases ran₂ : next a t with
    | ok b u =>
      have replays₂ := Leads.ok (second a t) ran₂
      exact Leads.of_ok ((bind_of_ok ran).trans ran₂)
        (replays.trans replays₂ fun _ _ _ ran ran₂ => (bind_of_ok ran).trans ran₂)
    | error abort u =>
      have replays₂ := Leads.error (second a t) ran₂
      exact Leads.of_error ((bind_of_ok ran).trans ran₂)
        (replays.trans replays₂ fun _ _ _ ran ran₂ => (bind_of_ok ran).trans ran₂)

/-- What a rule returns may be replaced. -/
theorem returns {b : β} (portable : Portable slack rule s) :
    Portable slack (rule >>= fun _ => pure b) s := by
  cases ran : rule s with
  | error abort t =>
    have replays := Leads.error portable ran
    exact Leads.of_error (bind_of_error ran) (replays.map fun _ _ => bind_of_error)
  | ok a t =>
    have replays := Leads.ok portable ran
    exact Leads.of_ok (bind_of_ok ran) (replays.map fun _ _ => bind_of_ok)

theorem of_ok {a : α} (ran : rule s = .ok a t) (grows : Grows s t)
    (same : t.Ample 0 → ∀ symbols quads, t.Fits 0 symbols quads →
      rule (s.resized symbols quads) = .ok a (t.resized symbols quads)) : Portable 0 rule s :=
  Leads.of_ok ran (.of_grows grows same)

theorem of_error {abort : Abort} (ran : rule s = .error abort t) (grows : Grows s t)
    (same : t.Ample 0 → ∀ symbols quads, t.Fits 0 symbols quads →
      rule (s.resized symbols quads) = .error abort (t.resized symbols quads)) :
    Portable slack rule s :=
  Leads.of_error ran (.of_grows grows same)

theorem of_eq {other : Rule α} (portable : Portable slack other s) (ran : rule s = other s)
    (same : ∀ symbols quads, rule (s.resized symbols quads) = other (s.resized symbols quads)) :
    Portable slack rule s := by
  unfold Portable Leads Reproduces at *
  simp only [ran, same]
  exact portable

/-- A rule that leaves room for one quad more has no need of slack. -/
theorem tight (portable : Portable 1 rule s) : Portable 0 rule s := by
  refine Leads.mono portable (fun a t replays ample => ?_) fun _ _ replays => replays
  have ample' : t.Ample 1 := ⟨Nat.lt_succ_of_lt ample.1, ample.2⟩
  obtain ⟨before, same⟩ := replays ample'
  refine ⟨before, fun symbols quads fits => same symbols quads ?_⟩
  exact ⟨fits.1, Nat.lt_succ_of_lt fits.2⟩

theorem of_pure {a : α} : Portable 0 (pure a) s := of_ok rfl .refl fun _ _ _ _ => rfl

theorem of_modify {change : Session → Session} (grows : Grows s (change s))
    (same : (change s).Ample 0 → ∀ symbols quads, (change s).Fits 0 symbols quads →
      change (s.resized symbols quads) = (change s).resized symbols quads) :
    Portable 0 (modify change) s := by
  have ran (t : Session) : (modify change : Rule Unit) t = .ok () (change t) := rfl
  apply of_ok (ran s) grows
  intro ample symbols quads fits
  rw [ran, same ample symbols quads fits]

theorem get_bind {next : Session → Rule β} (portable : Portable slack (next s) s)
    (same : ∀ symbols quads, next (s.resized symbols quads) = next s) :
    Portable slack (get >>= next) s := by
  apply of_eq portable (get_bind_apply next)
  intro symbols quads
  rw [get_bind_apply, same]

theorem lookKind_bind {next : TokenKind → Rule β} (portable : Portable slack (next s.look.kind) s) :
    Portable slack (lookKind >>= next) s :=
  get_bind portable fun _ _ => rfl

theorem of_remark (diagnostic : Diagnostic) : Portable 0 (remark diagnostic) s :=
  of_modify ⟨Nat.le_refl _, rfl, Nat.le_refl _, rfl, Nat.le_refl _, Nat.le_refl _⟩ fun _ _ _ _ => rfl

theorem of_fail (diagnostic : Diagnostic) : Portable slack (fail diagnostic : Rule α) s :=
  of_error rfl ⟨Nat.le_refl _, rfl, Nat.le_refl _, rfl, Nat.le_succ _, Nat.le_refl _⟩
    fun _ _ _ _ => rfl

theorem of_failFull (diagnostic : Diagnostic) : Portable slack (failFull diagnostic : Rule α) s :=
  of_error rfl ⟨Nat.le_refl _, rfl, Nat.le_refl _, rfl, Nat.le_succ _, Nat.le_refl _⟩
    fun _ _ _ _ => rfl

theorem of_failExpecting (wanted : Text) : Portable slack (failExpecting wanted : Rule α) s :=
  get_bind (of_fail _) fun _ _ => rfl

theorem of_ask {read : SymbolTable → Except AccessError α}
    (blind : ∀ table capacity, read (table.resized capacity) = read table) :
    Portable 0 (ask read) s := by
  cases answer : read s.symbols with
  | ok a =>
    apply of_ok (ask_of_ok answer) .refl
    intro _ symbols quads _
    exact ask_of_ok ((blind _ _).trans answer)
  | error error =>
    apply of_error (ask_of_error answer) .refl
    intro _ symbols quads _
    exact ask_of_error ((blind _ _).trans answer)

theorem of_change {write : SymbolTable → Except AccessError SymbolTable}
    (sizes : ∀ table changed, write table = .ok changed →
      changed.size = table.size ∧ changed.capacity = table.capacity)
    (blind : ∀ table capacity,
      write (table.resized capacity) = (write table).map (·.resized capacity)) :
    Portable 0 (change write) s := by
  cases written : write s.symbols with
  | ok changed =>
    obtain ⟨size, capacity⟩ := sizes _ _ written
    have ran {t : Session} {changed : SymbolTable} (written : write t.symbols = .ok changed) :
        change write t = .ok () { t with symbols := changed } :=
      bind_of_ok (ask_of_ok written)
    apply of_ok (ran written)
    · exact ⟨Nat.le_of_eq size.symm, capacity, Nat.le_refl _, rfl, Nat.le_refl _, Nat.le_refl _⟩
    · intro _ symbols quads _
      have written' : write (s.resized symbols quads).symbols = .ok (changed.resized symbols) := by
        rw [show (s.resized symbols quads).symbols = s.symbols.resized symbols from rfl, blind, written]
        rfl
      exact ran written'
  | error error =>
    apply of_error (bind_of_error (ask_of_error written)) .refl
    intro _ symbols quads _
    have written' : write (s.resized symbols quads).symbols = .error error := by
      rw [show (s.resized symbols quads).symbols = s.symbols.resized symbols from rfl, blind, written]
      rfl
    exact bind_of_error (ask_of_error written')

/-- Noting when a rule is entered and left does not depend on the capacities. -/
theorem traced {name : Nonterminal} (inner : ∀ t, Portable slack rule t) :
    Portable slack (Rule.traced name rule) s := by
  have lead := inner { s.note (.enter s.depth name) with depth := s.depth + 1 }
  cases ran : rule { s.note (.enter s.depth name) with depth := s.depth + 1 } with
  | ok a t =>
    have replays := Leads.ok lead ran
    apply Leads.of_ok (traced_of_ok ran)
    intro ample
    obtain ⟨ample', same⟩ := replays ample
    refine ⟨ample', fun symbols quads fits => ?_⟩
    obtain ⟨fits', ran'⟩ := same symbols quads fits
    exact ⟨fits', traced_of_ok (s := s.resized symbols quads) (t := t.resized symbols quads) ran'⟩
  | error abort t =>
    have replays := Leads.error lead ran
    apply Leads.of_error (traced_of_error ran)
    intro ample
    obtain ⟨ample', same⟩ := replays ample
    refine ⟨ample', fun symbols quads fits => ?_⟩
    obtain ⟨fits', ran'⟩ := same symbols quads fits
    exact ⟨fits', traced_of_error (s := s.resized symbols quads) (t := t.resized symbols quads) ran'⟩

end Portable

/-! ## Tokens -/

end Rule

namespace Lexing

/-- The same with a symbol table of another capacity. -/
def resized (lexing : Lexing) (capacity : Nat) : Lexing :=
  { lexing with symbols := lexing.symbols.resized capacity }

theorem foldl_observe_resized (capacity : Nat) (notes : List ScanNote) (lexing : Lexing) :
    notes.foldl observe (lexing.resized capacity) = (notes.foldl observe lexing).resized capacity := by
  induction notes generalizing lexing with
  | nil => rfl
  | cons note notes ih =>
    have same : (lexing.resized capacity).observe note = (lexing.observe note).resized capacity := by
      cases note <;> rfl
    rw [List.foldl_cons, same]
    exact ih (lexing.observe note)

/-- A symbol that is not refused is registered in any other table that has room for it. -/
theorem register_resized {lexing : Lexing} {name : Text} {registration : Registration} {capacity : Nat}
    (accepted : (lexing.register name registration).symbols.size <
        (lexing.register name registration).symbols.capacity ∨
      (lexing.register name registration).lexicalErrors = 0)
    (fits : (lexing.register name registration).symbols.size ≤ capacity) :
    (lexing.resized capacity).register name registration =
      (lexing.register name registration).resized capacity := by
  unfold register at *
  rcases lexing.symbols.add_cases name registration.usage registration.value with
    ⟨i, found, added⟩ | ⟨new, full, added⟩ | ⟨new, room, added⟩
  · have added' := lexing.symbols.add_resized_of_some capacity registration.usage
      registration.value found
    simp only [resized, added, added']
  · -- The name was refused: the table is full and an error was counted.
    simp only [added, report, Diagnostic.level] at accepted
    simp [full] at accepted
  · simp only [added, SymbolTable.size_insert] at fits
    have added' := lexing.symbols.add_resized_of_none capacity registration.usage
      registration.value new (by omega)
    simp only [resized, added, added']

theorem next_resized {lexing : Lexing} {capacity : Nat}
    (accepted : lexing.next.2.symbols.size < lexing.next.2.symbols.capacity ∨
      lexing.next.2.lexicalErrors = 0)
    (fits : lexing.next.2.symbols.size ≤ capacity) :
    (lexing.resized capacity).next = (lexing.next.1, lexing.next.2.resized capacity) := by
  have start : (lexing.resized capacity).unread = lexing.unread := rfl
  unfold next at *
  rw [start]
  cases unread : lexing.unread with
  | nil => rfl
  | cons item items =>
    simp only [unread] at accepted fits
    dsimp only
    have moved : { lexing.resized capacity with unread := items, line := item.line } =
        Lexing.resized { lexing with unread := items, line := item.line } capacity := rfl
    rw [moved, foldl_observe_resized]
    generalize item.notes.foldl observe { lexing with unread := items, line := item.line } = seen at *
    cases lexeme : item.lexeme with
    | none => rfl
    | some found =>
      simp only [lexeme] at accepted fits
      dsimp only
      unfold handOver at *
      cases registered : found.registration with
      | none => rfl
      | some registration =>
        simp only [registered] at accepted fits
        dsimp only
        rw [register_resized accepted fits]
        rfl

end Lexing

namespace Session

theorem advance_resized {s : Session} {symbols : Nat} (quads : Nat)
    (accepted : s.advance.symbols.size < s.advance.symbols.capacity ∨ s.advance.lexicalErrors = 0)
    (fits : s.advance.symbols.size ≤ symbols) :
    (s.resized symbols quads).advance = s.advance.resized symbols quads := by
  have same := Lexing.next_resized accepted fits
  have start : (s.resized symbols quads).toLexing = s.toLexing.resized symbols := rfl
  unfold advance
  rw [start, same]
  rfl

theorem Grows.trans {s t u : Session} (first : Grows s t) (second : Grows t u) : Grows s u where
  symbols := Nat.le_trans first.symbols second.symbols
  symbolCapacity := second.symbolCapacity.trans first.symbolCapacity
  quads := Nat.le_trans first.quads second.quads
  quadCapacity := second.quadCapacity.trans first.quadCapacity
  syntaxErrors := Nat.le_trans first.syntaxErrors second.syntaxErrors
  lexicalErrors := Nat.le_trans first.lexicalErrors second.lexicalErrors

theorem Grows.advance (s : Session) : Grows s s.advance := by
  have errors : s.lexicalErrors ≤ s.advance.lexicalErrors := by
    cases unread : s.unread with
    | nil => exact Nat.le_of_eq (by simp [Session.advance, Lexing.next_nil unread])
    | cons item items => exact Nat.le_of_add_right_le (lexicalErrors_advance unread).1
  rcases s.symbols_advance with same | ⟨_, _, cell, _, _, _, _, added⟩
  · exact ⟨Nat.le_of_eq (by rw [same]), by rw [same], Nat.le_refl _, rfl, Nat.le_refl _, errors⟩
  · have size : s.symbols.size ≤ s.advance.symbols.size := by
      rw [added, SymbolTable.size_insert]
      omega
    exact ⟨size, by rw [added]; rfl, Nat.le_refl _, rfl, Nat.le_refl _, errors⟩

theorem Ample.accepts {slack : Nat} {s : Session} (ample : s.Ample slack) :
    s.symbols.size < s.symbols.capacity ∨ s.lexicalErrors = 0 :=
  ample.2.imp_right And.right

end Session

namespace Rule

open Session

variable {α β : Type} {slack : Nat} {s t : Session}

theorem advance_portable : Portable 0 advance s :=
  .of_modify (Grows.advance s) fun ample _ quads fits => advance_resized quads ample.accepts fits.1

/-! ## Quads and symbols -/

/-- A quad can take the last place, but then no jump can lead behind it. -/
theorem emit_portable (op : Opcode) (a b c : Int) : Portable 1 (emit op a b c) s := by
  have ran {t : Session} (room : t.quads.size ≠ t.quads.capacity) :
      emit op a b c t = .ok t.quads.size { t with quads := t.quads.add ⟨op, a, b, c⟩ } := by
    have next : t.quads.next? = some t.quads.size := by rw [QuadTable.next?, if_neg room]
    simp only [emit, get_bind_apply, next]
    rfl
  by_cases full : s.quads.size = s.quads.capacity
  · have next : s.quads.next? = none := by rw [QuadTable.next?, if_pos full]
    have refused : emit op a b c s = failFull .noRoomForQuad s := by
      simp only [emit, get_bind_apply, next]
    apply Leads.of_error refused
    intro ample
    have := ample.1
    change s.quads.size < s.quads.capacity + 0 at this
    omega
  · apply Leads.of_ok (ran full)
    intro ample
    have inside : (s.quads.add ⟨op, a, b, c⟩).size < s.quads.capacity + 1 := by
      have := ample.1
      simpa only [QuadTable.capacity_add] using this
    have room : s.quads.size < s.quads.capacity := by
      by_cases below : s.quads.size < s.quads.capacity
      · exact below
      · rw [QuadTable.add_of_full (by omega)] at inside
        omega
    constructor
    · exact ⟨room, ample.2⟩
    · intro symbols quads fits
      have last : (s.quads.add ⟨op, a, b, c⟩).size < quads + 1 := fits.2
      rw [QuadTable.size_add room] at last
      have fits' : s.Fits 0 symbols quads := ⟨fits.1, by omega⟩
      have room' : (s.resized symbols quads).quads.size ≠ (s.resized symbols quads).quads.capacity := by
        change s.quads.size ≠ quads
        omega
      refine ⟨fits', (ran room').trans ?_⟩
      have same := s.quads.add_resized quads ⟨op, a, b, c⟩ room (by omega)
      change EStateM.Result.ok s.quads.size { s.resized symbols quads with
        quads := (s.quads.resized quads).add ⟨op, a, b, c⟩ } = _
      rw [same]
      rfl

/-- While there is room, the next quad stands at the same place whatever the capacity is. -/
theorem nextQuad_portable : Portable 0 nextQuad s := by
  have ran (t : Session) : nextQuad t = .ok t.quads.target t := rfl
  apply Portable.of_ok (ran s) .refl
  intro ample symbols quads fits
  have room' : (s.resized symbols quads).quads.size < (s.resized symbols quads).quads.capacity := fits.2
  have target : (s.resized symbols quads).quads.target = s.quads.target := by
    rw [QuadTable.target_of_room room', QuadTable.target_of_room ample.1]
    rfl
  rw [ran, target]

theorem patch_portable (i : Nat) (target : Int) : Portable 0 (patch i target) s := by
  apply Portable.of_modify
  · exact ⟨Nat.le_refl _, rfl, Nat.le_of_eq (QuadTable.size_retarget ..).symm,
      QuadTable.capacity_retarget .., Nat.le_refl _, Nat.le_refl _⟩
  · intro _ symbols quads _
    change { s.resized symbols quads with quads := (s.quads.resized quads).retarget i target } = _
    rw [QuadTable.retarget_resized]
    rfl

theorem symbol_portable (name : Text) (value : Value) : Portable 0 (symbol name value) s := by
  have ran {t : Session} {i : Nat} {symbols : SymbolTable}
      (added : t.symbols.add name .constant value = (some i, symbols)) :
      symbol name value t = .ok i { t with symbols } := by
    simp only [symbol, get_bind_apply, added]
    rfl
  rcases s.symbols.add_cases name .constant value with
    ⟨i, found, added⟩ | ⟨new, full, added⟩ | ⟨new, room, added⟩
  · apply Portable.of_ok (ran added) .refl
    intro _ symbols quads _
    exact ran (t := s.resized symbols quads)
      (s.symbols.add_resized_of_some symbols .constant value found)
  · have refused : symbol name value s = failFull (.noRoomFor name) s := by
      simp only [symbol, get_bind_apply, added]
    apply Leads.of_error refused
    rintro ⟨_, room | clean⟩
    · exact absurd full (Nat.ne_of_lt room)
    · exact absurd clean.1 (Nat.succ_ne_zero _)
  · apply Portable.of_ok (ran added)
    · refine ⟨?_, rfl, Nat.le_refl _, rfl, Nat.le_refl _, Nat.le_refl _⟩
      rw [SymbolTable.size_insert]
      omega
    · intro _ symbols quads fits
      have last : (s.symbols.insert ⟨name, .constant, value⟩).size ≤ symbols := fits.1
      rw [SymbolTable.size_insert] at last
      exact ran (t := s.resized symbols quads)
        (s.symbols.add_resized_of_none symbols .constant value new (by omega))

theorem temporary_portable (kind : Kind) : Portable 0 (temporary kind) s := by
  apply Portable.bind
  · exact .of_modify ⟨Nat.le_refl _, rfl, Nat.le_refl _, rfl, Nat.le_refl _, Nat.le_refl _⟩
      fun _ _ _ _ => rfl
  · intro _ t
    exact .get_bind (symbol_portable _ _) fun _ _ => rfl

/-! ## Identifiers -/

theorem registered_portable : Portable 0 registered s := by
  apply Portable.get_bind
  · split
    · exact .bind advance_portable fun _ _ => .of_pure
    · exact .of_failFull _
  · intro _ _
    rfl

theorem identifier_portable : Portable 0 identifier s := by
  apply Portable.lookKind_bind
  split
  · exact registered_portable
  · exact .of_failExpecting _

theorem variableUse_portable : Portable 0 variableUse s := by
  apply Portable.traced
  intro s
  apply Portable.get_bind _ fun _ _ => rfl
  apply Portable.bind identifier_portable
  intro i t
  apply Portable.bind (.of_ask fun _ _ => rfl)
  intro usage t
  split
  · exact .of_fail _
  · by_cases new : i ∉ t.declared ∧ i ∉ t.warned
    · apply Portable.of_ok (a := i)
        (t := { t.note (.report (.undeclared s.look.lexeme)) with warned := i :: t.warned })
      · change (if i ∉ t.declared ∧ i ∉ t.warned then _ else _ : Rule Nat) t = _
        rw [if_pos new]
        rfl
      · exact ⟨Nat.le_refl _, rfl, Nat.le_refl _, rfl, Nat.le_refl _, Nat.le_refl _⟩
      · intro _ symbols quads _
        change (if i ∉ t.declared ∧ i ∉ t.warned then _ else _ : Rule Nat) (t.resized symbols quads) = _
        rw [if_pos new]
        rfl
    · apply Portable.of_ok (a := i) (t := t)
      · change (if i ∉ t.declared ∧ i ∉ t.warned then _ else _ : Rule Nat) t = _
        rw [if_neg new]
        rfl
      · exact .refl
      · intro _ symbols quads _
        change (if i ∉ t.declared ∧ i ∉ t.warned then _ else _ : Rule Nat) (t.resized symbols quads) = _
        rw [if_neg new]
        rfl

theorem declare_portable (kind : Kind) (i : Nat) : Portable 0 (declare kind i) s := by
  have rest (t : Session) : Portable 0 (do
      modify fun s => { s with declared := i :: s.declared }
      change (·.declare i kind)) t := by
    apply Portable.bind
    · exact .of_modify ⟨Nat.le_refl _, rfl, Nat.le_refl _, rfl, Nat.le_refl _, Nat.le_refl _⟩
        fun _ _ _ _ => rfl
    · intro _ u
      exact .of_change (fun _ _ => SymbolTable.declare_keeps)
        fun table capacity => table.declare_resized capacity i kind
  apply Portable.get_bind
  · dsimp only
    split
    · exact .bind (.of_ask fun _ _ => rfl) fun _ _ => .bind (.of_remark _) fun _ t => rest t
    · exact rest s
  · intro _ _
    rfl

/-! ## Going on after an error -/

theorem skipTokens_grows (fuel skipped : Nat) (s : Session) :
    Grows s (skipTokens fuel skipped s).2 := by
  induction fuel generalizing skipped s with
  | zero => exact .refl
  | succ fuel ih =>
    unfold skipTokens
    split
    · exact .refl
    · exact (Grows.advance s).trans (ih (skipped + 1) s.advance)

theorem skipTokens_resized (fuel skipped symbols quads : Nat) (s : Session)
    (ample : (skipTokens fuel skipped s).2.Ample 0)
    (fits : (skipTokens fuel skipped s).2.Fits 0 symbols quads) :
    skipTokens fuel skipped (s.resized symbols quads) =
      ((skipTokens fuel skipped s).1, (skipTokens fuel skipped s).2.resized symbols quads) := by
  induction fuel generalizing skipped s with
  | zero => rfl
  | succ fuel ih =>
    unfold skipTokens at ample fits ⊢
    change (if s.look.kind = .endOfInput ∨ s.look.kind.startsStatement then _ else _) = _
    split
    · rfl
    · rename_i goesOn
      rw [if_neg goesOn] at ample fits
      have grows := skipTokens_grows fuel (skipped + 1) s.advance
      rw [advance_resized quads (grows.ample ample).accepts (grows.fits fits).1]
      exact ih (skipped + 1) s.advance ample fits

theorem resync_portable : Portable 0 resync s := by
  cases full : s.exhausted with
  | true =>
    have ran {t : Session} (full : t.exhausted = true) : resync t = .ok false t := by
      simp only [resync, full, if_true]
    exact .of_ok (ran full) .refl fun _ symbols quads _ => ran (t := s.resized symbols quads) full
  | false =>
    rcases skip : skipTokens (s.unread.length + 2) 0 s with ⟨skipped, t⟩
    have grows := skipTokens_grows (s.unread.length + 2) 0 s
    have replays := skipTokens_resized (s.unread.length + 2) 0
    rw [skip] at grows
    -- what is noted depends on the token that was found and on its line, and not on the tables
    obtain ⟨goesOn, event, ran⟩ : ∃ goesOn event, ∀ s' t' : Session, s'.exhausted = false →
        t'.look = t.look → t'.line = t.line → skipTokens (s'.unread.length + 2) 0 s' = (skipped, t') →
        resync s' = .ok goesOn (t'.note event) := by
      by_cases ended : t.look.kind = .endOfInput
      · refine ⟨false, .report .noStatementLeft, fun _ _ room look _ skip => ?_⟩
        simp only [resync, room, Bool.false_eq_true, if_false, skip, look, if_pos ended]
      · refine ⟨true, .report (.resumed skipped t.look.lexeme t.line), fun _ _ room look line skip => ?_⟩
        simp only [resync, room, Bool.false_eq_true, if_false, skip, look, line, if_neg ended]
    apply Portable.of_ok (ran s t full rfl rfl skip) (grows.note _)
    intro ample symbols quads fits
    have skip' := replays symbols quads s (by rw [skip]; exact ample) (by rw [skip]; exact fits)
    rw [skip] at skip'
    exact ran (s.resized symbols quads) (t.resized symbols quads) full rfl rfl skip'

theorem retrying_portable {again : Rule Unit} (second : ∀ t, Portable 0 again t) :
    Portable 0 (retrying again) s := by
  apply Portable.bind resync_portable
  intro goesOn t
  split
  · exact second t
  · exact .of_error rfl .refl fun _ _ _ _ => rfl

theorem recovering_portable {body again : Rule Unit} (first : Portable 0 body s)
    (second : ∀ t, Portable 0 again t) : Portable 0 (recovering body again) s := by
  cases ran : body s with
  | ok _ t =>
    have replays := Leads.ok first ran
    exact Leads.of_ok (recovering_of_ok ran) (replays.map fun _ _ => recovering_of_ok)
  | error abort t =>
    have replays := Leads.error first ran
    by_cases gaveUp : abort = .gaveUp
    · subst gaveUp
      have lead := retrying_portable second (s := t)
      cases tried : retrying again t with
      | ok _ u =>
        have replays₂ := Leads.ok lead tried
        exact Leads.of_ok ((recovering_of_gaveUp ran).trans tried)
          (replays.trans replays₂ fun _ _ _ ran ran₂ => (recovering_of_gaveUp ran).trans ran₂)
      | error abort u =>
        have replays₂ := Leads.error lead tried
        exact Leads.of_error ((recovering_of_gaveUp ran).trans tried)
          (replays.trans replays₂ fun _ _ _ ran ran₂ => (recovering_of_gaveUp ran).trans ran₂)
    · exact Leads.of_error (recovering_of_abort ran gaveUp)
        (replays.map fun _ _ ran => recovering_of_abort ran gaveUp)

/-! ## All rules -/

theorem Basic.portable {x : Rule α} (basic : Basic x) (s : Session) : Portable 0 x s := by
  cases basic with
  | lookKind => exact .get_bind .of_pure fun _ _ => rfl
  | advance => exact advance_portable
  | failExpecting wanted => exact .of_failExpecting wanted
  | emit => exact (emit_portable ..).tight
  | nextQuad => exact nextQuad_portable
  | patch i target => exact patch_portable i target
  | constant => exact symbol_portable ..
  | temporary kind => exact temporary_portable kind
  | kindOf => exact .of_ask fun _ _ => rfl
  | registered => exact registered_portable
  | variableUse => exact variableUse_portable
  | nameProgram i =>
    apply Portable.bind (.of_ask fun _ _ => rfl)
    intro value t
    exact .of_change (fun _ _ => SymbolTable.update_keeps)
      fun table capacity => table.update_resized capacity i .program value
  | declare kind i => exact declare_portable kind i

theorem Composed.portable {x : Rule α} (composed : Composed x) : ∀ s, Portable 0 x s := by
  induction composed with
  | basic is => exact is.portable
  | pure => exact fun _ => .of_pure
  | outOfFuel => exact fun _ => .of_error rfl .refl fun _ _ _ _ => rfl
  | bind _ _ first second => exact fun s => .bind (first s) second
  | traced _ _ inner => exact fun _ => .traced inner
  | bounded _ inner => exact fun s => .of_eq (inner _ s) rfl fun _ _ => rfl
  | recovering _ _ first second => exact fun s => recovering_portable (first s) second

/-- The quad that ends a program may be the last one that there is room for. -/
theorem program_portable : Portable 1 program s := by
  have expect (kind : TokenKind) (t : Session) : Portable 0 (expect kind) t := (Composed.expect kind).portable t
  apply Portable.traced
  intro s
  apply Portable.bind (expect _ s)
  intro _ t
  apply Portable.bind (Composed.progIdentifier.portable t)
  intro _ t
  apply Portable.bind (expect _ t)
  intro _ t
  apply Portable.bind (Composed.block.portable t)
  intro _ t
  apply Portable.bind (expect _ t)
  intro _ t
  exact (emit_portable ..).returns

end Rule

/-! ## Compilations -/

open Session Rule

/-- The same options with other capacities. -/
def CompileOptions.resized (options : CompileOptions) (symbols quads : Nat) : CompileOptions :=
  { options with maxSymbols := symbols, maxQuads := quads }

/-- The tables of two programs hold the same symbols and quads. -/
structure Program.SameContents (p q : Program) : Prop where
  cells : p.symbols.cells = q.symbols.cells
  index : p.symbols.index = q.symbols.index
  quads : p.quads.quads = q.quads.quads

variable (options : CompileOptions) (input : Input)

theorem start_resized (symbols quads : Nat) :
    Session.start (options.resized symbols quads) input =
      (Session.start options input).resized symbols quads := rfl

theorem wholeProgram_portable {s : Session} : Portable 1 wholeProgram s :=
  .bind advance_portable fun _ _ => program_portable

/-- Two compilations agree on the verdict and on what the tables hold. -/
structure Compilation.Agrees (first second : Compilation) : Prop where
  verdict : first.verdict = second.verdict
  contents : first.program.SameContents second.program

theorem Compilation.Agrees.symm {first second : Compilation} (agrees : first.Agrees second) :
    second.Agrees first :=
  ⟨agrees.verdict.symm, agrees.contents.cells.symm, agrees.contents.index.symm,
    agrees.contents.quads.symm⟩

theorem Compilation.Agrees.trans {first second third : Compilation} (agrees : first.Agrees second)
    (agrees' : second.Agrees third) : first.Agrees third where
  verdict := agrees.verdict.trans agrees'.verdict
  contents :=
    ⟨agrees.contents.cells.trans agrees'.contents.cells,
      agrees.contents.index.trans agrees'.contents.index,
      agrees.contents.quads.trans agrees'.contents.quads⟩

theorem Compilation.agrees_resized (outcome : Session → EStateM.Result Abort Session Unit)
    (form : outcome = .ok () ∨ ∃ abort, outcome = .error abort) (t : Session) (symbols quads : Nat) :
    (ofOutcome (outcome (t.resized symbols quads))).Agrees (ofOutcome (outcome t)) := by
  rcases form with rfl | ⟨abort, rfl⟩
  · exact ⟨rfl, rfl, rfl, rfl⟩
  · cases abort <;> exact ⟨rfl, rfl, rfl, rfl⟩

variable {options input}

/-- A compilation whose tables have room to spare is the same with other capacities. -/
theorem agrees_of_room (room : (compile options input).program.HasRoom) {symbols quads : Nat}
    (cells : (compile options input).program.symbols.size ≤ symbols)
    (code : (compile options input).program.quads.size < quads) :
    (compile (options.resized symbols quads) input).Agrees (compile options input) := by
  have portable : Portable 1 wholeProgram (Session.start options input) := wholeProgram_portable
  cases ran : wholeProgram (Session.start options input) with
  | ok _ t =>
    have tables := tables_of_ok ran
    rw [tables] at room cells code
    have ample : t.Ample 1 := ⟨Nat.lt_succ_of_lt room.2, .inl room.1⟩
    obtain ⟨_, same⟩ := Leads.ok portable ran ample
    obtain ⟨_, ran'⟩ := same symbols quads ⟨cells, Nat.lt_succ_of_lt code⟩
    rw [compile_eq, compile_eq, start_resized, ran, ran']
    exact Compilation.agrees_resized _ (.inl rfl) t symbols quads
  | error abort t =>
    have tables := tables_of_error ran
    rw [tables] at room cells code
    obtain ⟨_, same⟩ := Leads.error portable ran ⟨room.2, .inl room.1⟩
    obtain ⟨_, ran'⟩ := same symbols quads ⟨cells, code⟩
    rw [compile_eq, compile_eq, start_resized, ran, ran']
    exact Compilation.agrees_resized _ (.inr ⟨abort, rfl⟩) t symbols quads

/-- A compilation that accepts is the same with other capacities that are large enough, even if they
are used up. -/
theorem agrees_of_accepted (accepted : (compile options input).verdict = .accepted)
    {symbols quads : Nat} (cells : (compile options input).program.symbols.size ≤ symbols)
    (code : (compile options input).program.quads.size ≤ quads) :
    (compile (options.resized symbols quads) input).Agrees (compile options input) := by
  have portable : Portable 1 wholeProgram (Session.start options input) := wholeProgram_portable
  obtain ⟨t, ran, clean⟩ := (accepted_iff options input).mp accepted
  have valid : t.Valid := by
    have leads := program_does _ (firstSession_orderly options input).valid
    exact (Leads.ok leads ran).1.valid (firstSession_orderly options input).valid
  have tables := tables_of_ok ran
  rw [tables] at cells code
  have ran : wholeProgram (Session.start options input) = .ok () t := ran
  have ample : t.Ample 1 := ⟨Nat.lt_succ_of_le valid.quads, .inr clean⟩
  obtain ⟨_, same⟩ := Leads.ok portable ran ample
  obtain ⟨_, ran'⟩ := same symbols quads ⟨cells, Nat.lt_succ_of_le code⟩
  rw [compile_eq, compile_eq, start_resized, ran, ran']
  exact Compilation.agrees_resized _ (.inl rfl) t symbols quads

/-- The tables have the capacities that were asked for, and keep within them. -/
theorem compile_capacities (options : CompileOptions) (input : Input) :
    ((compile options input).program.symbols.capacity = options.maxSymbols ∧
      (compile options input).program.symbols.size ≤ options.maxSymbols) ∧
    (compile options input).program.quads.capacity = options.maxQuads ∧
      (compile options input).program.quads.size ≤ options.maxQuads := by
  obtain ⟨t, moves, tables⟩ := compile_moves options input
  have valid := moves.valid (firstSession_orderly options input).valid
  have grows := Grows.advance (Session.start options input)
  have symbols : t.symbols.capacity = options.maxSymbols := moves.capacity.trans grows.symbolCapacity
  have quads : t.quads.capacity = options.maxQuads := moves.quads_le.2.trans grows.quadCapacity
  rw [tables]
  exact ⟨⟨symbols, symbols ▸ valid.symbols.fits⟩, quads, quads ▸ valid.quads⟩

theorem hasRoom_of_large {symbols quads : Nat}
    (large : 16 * (tokensOf (scanned options input)).length + 2 ≤ symbols)
    (large' : 16 * (tokensOf (scanned options input)).length + 2 ≤ quads) :
    (compile (options.resized symbols quads) input).program.HasRoom := by
  have stored := stored_le (options.resized symbols quads) input
  obtain ⟨⟨capacity, _⟩, capacity', _⟩ := compile_capacities (options.resized symbols quads) input
  change _ ≤ 16 * (tokensOf (scanned options input)).length + 1 at stored
  unfold Program.HasRoom
  rw [capacity, capacity']
  change _ < symbols ∧ _ < quads
  omega

/-- A compilation that accepts agrees with every one whose tables have room to spare: both agree with
a third one, whose capacities are at least theirs. -/
theorem agrees_of_accepted_of_room {symbols quads symbols' quads' : Nat}
    (accepted : (compile (options.resized symbols quads) input).verdict = .accepted)
    (room : (compile (options.resized symbols' quads') input).program.HasRoom) :
    (compile (options.resized symbols quads) input).Agrees
      (compile (options.resized symbols' quads') input) := by
  have third := agrees_of_accepted accepted
    (Nat.le_max_left _ (compile (options.resized symbols' quads') input).program.symbols.size)
    (Nat.le_succ_of_le
      (Nat.le_max_left _ (compile (options.resized symbols' quads') input).program.quads.size))
  have third' := agrees_of_room room
    (Nat.le_max_right (compile (options.resized symbols quads) input).program.symbols.size _)
    (Nat.lt_succ_of_le
      (Nat.le_max_right (compile (options.resized symbols quads) input).program.quads.size _))
  exact third.symm.trans third'

/-- Capacities never change a program: a text is accepted just if it is accepted where nothing is
exhausted and what is stored there fits, and then the same is stored. -/
theorem capacity_decides_acceptance_only (options : CompileOptions) (input : Input)
    (symbols quads : Nat) :
    (∃ enough, ∀ symbols' quads', enough ≤ symbols' → enough ≤ quads' →
      (compile (options.resized symbols' quads') input).program.HasRoom) ∧
    ∀ symbols' quads', (compile (options.resized symbols' quads') input).program.HasRoom →
      ((compile (options.resized symbols quads) input).verdict = .accepted ↔
        (compile (options.resized symbols' quads') input).verdict = .accepted ∧
        (compile (options.resized symbols' quads') input).program.symbols.size ≤ symbols ∧
        (compile (options.resized symbols' quads') input).program.quads.size ≤ quads) ∧
      ((compile (options.resized symbols quads) input).verdict = .accepted →
        (compile (options.resized symbols quads) input).program.SameContents
          (compile (options.resized symbols' quads') input).program) := by
  constructor
  · exact ⟨_, fun _ _ => hasRoom_of_large⟩
  · intro symbols' quads' room
    refine ⟨⟨fun accepted => ?_, fun fits => ?_⟩, fun accepted => ?_⟩
    · obtain ⟨verdict, contents⟩ := agrees_of_accepted_of_room accepted room
      obtain ⟨⟨_, cells⟩, _, code⟩ := compile_capacities (options.resized symbols quads) input
      refine ⟨verdict ▸ accepted, ?_, ?_⟩
      · unfold SymbolTable.size at cells ⊢
        exact contents.cells ▸ cells
      · unfold QuadTable.size at code ⊢
        exact contents.quads ▸ code
    · obtain ⟨accepted, cells, code⟩ := fits
      exact (agrees_of_accepted accepted cells code).verdict.trans accepted
    · exact (agrees_of_accepted_of_room accepted room).contents

end MiniPascal
