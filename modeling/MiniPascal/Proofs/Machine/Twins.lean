import MiniPascal.Proofs.DefiniteAssignment
import MiniPascal.Proofs.Machine.Delivery
import MiniPascal.Proofs.Machine.Tracing

/-! # What is in the temporaries does not matter

Two machines with the same code and memories that differ in nothing but some hidden cells go the same steps,
as long as no quad reads a hidden cell. Each quad that writes a hidden cell writes the same value on both
sides, so the cell is hidden no longer. In compiled code the cells hidden at a place are the temporaries that
may not have been written yet, and these are not read.
-/

namespace MiniPascal

open Outcome

/-! ## Memories that differ in hidden cells -/

namespace SymbolTable

/-- Two memories of one shape whose cells are the same apart from the hidden ones. -/
structure AgreeOff (hidden : Nat → Prop) (first second : SymbolTable) : Prop where
  alike : first.Alike second
  cells : ∀ i : Nat, ¬ hidden i → second.cells[i]? = first.cells[i]?

variable {hidden : Nat → Prop} {first second : SymbolTable}

theorem AgreeOff.mono {more : Nat → Prop} (agree : AgreeOff hidden first second)
    (weaker : ∀ i, hidden i → more i) : AgreeOff more first second :=
  ⟨agree.alike, fun i shown => agree.cells i (mt (weaker i) shown)⟩

theorem AgreeOff.cell (agree : AgreeOff hidden first second) {i : Int}
    (shown : ∀ n : Nat, i = n → ¬ hidden n) : second.cell i = first.cell i := by
  unfold SymbolTable.cell
  cases found : first.cell? i with
  | none => rw [agree.alike.cell?_eq_none found, agree.alike.size]
  | some cell =>
    obtain ⟨n, rfl, here⟩ := exists_nat_of_cell? found
    have same : second.cell? (n : Int) = some cell := by
      rw [cell?, if_neg (by omega), Int.toNat_natCast, agree.cells n (shown n rfl), here]
    rw [same]

/-- Storing a value in a cell makes it the same on both sides. -/
theorem AgreeOff.stored (agree : AgreeOff hidden first second) (i : Int) (value : Value) :
    Rel (AgreeOff fun n => hidden n ∧ i ≠ n) (first.stored i value) (second.stored i value) := by
  cases found : first.cell? i with
  | none =>
    have missing := agree.alike.cell?_eq_none found
    have size := agree.alike.size
    have fails (table : SymbolTable) (missing : table.cell? i = none) :
        table.stored i value = .error (.crash (.noCell i table.size)) := by
      rw [SymbolTable.stored, SymbolTable.kind, SymbolTable.cell, missing]
      rfl
    rw [fails first found, fails second missing, size]
    exact .error _
  | some cell =>
    obtain ⟨n, rfl, here⟩ := exists_nat_of_cell? found
    obtain ⟨other, there, shape⟩ := agree.alike.stays here
    obtain ⟨name, usage, kind⟩ : other.name = cell.name ∧ other.usage = cell.usage ∧
        other.value.kind = cell.value.kind := by
      simpa [Cell.shape] using shape
    rw [stored_of_cell here, stored_of_cell there, kind, usage]
    refine .bind_self _ fun result => ?_
    split
    · rename_i same
      have changed : second.Alike (second.modify n other.usage result) :=
        .modify there (same.symm.trans kind.symm)
      rw [usage] at changed
      refine .ok ⟨(Alike.modify here same.symm).symm.trans (agree.alike.trans changed), ?_⟩
      intro j shown
      rw [cells_modify, cells_modify]
      split
      · rename_i eq
        subst eq
        rw [here, there]
        exact congrArg (fun name => some (Cell.mk name cell.usage result)) name
      · rename_i apart
        exact agree.cells j fun hides => shown ⟨hides, by omega⟩
    · exact .error _

end SymbolTable

/-! ## Quads that read no hidden cell -/

namespace SymbolTable.AgreeOff

variable {hidden : Nat → Prop} {first second : SymbolTable}

theorem value (agree : AgreeOff hidden first second) {i : Int} (shown : ∀ n : Nat, i = n → ¬ hidden n) :
    second.value i = first.value i := by
  rw [SymbolTable.value, agree.cell shown]
  rfl

/-- A quad does the same on both sides, and what it writes is hidden no longer. -/
theorem action (agree : AgreeOff hidden first second) {q : Quad}
    (shown : ∀ n : Nat, (n : Int) ∈ q.reads → ¬ hidden n) :
    Outcome.Rel (Action.Rel (AgreeOff fun n => hidden n ∧ ¬ q.Writes n)) (q.action first)
      (q.action second) := by
  obtain ⟨op, a, b, c⟩ := q
  have stores (is : op.stores = true) (x : Value) :
      Outcome.Rel (Action.Rel (AgreeOff fun n => hidden n ∧ ¬ Quad.Writes ⟨op, a, b, c⟩ n))
        (first.stored c x >>= fun after => .ok (.write after))
        (second.stored c x >>= fun after => .ok (.write after)) := by
    refine (agree.stored c x).bind fun _ _ related => .ok (.write (related.mono ?_))
    exact fun n ⟨hides, other⟩ => ⟨hides, fun writes => other writes.2⟩
  have same {i : Int} (reads : i ∈ Quad.reads ⟨op, a, b, c⟩) : second.value i = first.value i :=
    agree.value fun n is => shown n (is ▸ reads)
  cases op with
  | stop => exact .ok .stop
  | div | mul | sub | add =>
    rw [Quad.action_of_arithmetic rfl, Quad.action_of_arithmetic rfl, same (by simp [Quad.reads]),
      same (by simp [Quad.reads])]
    exact .bind_self _ fun x => .bind_self _ fun y => .bind_self _ fun value => stores rfl value
  | mov =>
    rw [Quad.action_of_mov rfl, Quad.action_of_mov rfl, same (by simp [Quad.reads])]
    exact .bind_self _ fun value => stores rfl value
  | print =>
    simp only [Quad.action, same (i := c) (by simp [Quad.reads])]
    exact .bind_self _ fun value => .ok (.print value)
  | read => exact .ok (.read c)
  | jmp => exact .ok (.goto c)
  | jz | jp | jn | jnz | jnp | jnn =>
    simp only [Quad.action, same (i := a) (by simp [Quad.reads])]
    refine .bind_self _ fun x => .bind_self _ fun sign => .ok ?_
    split
    · exact .goto c
    · exact .next
  | jindr =>
    have cell : second.int c = first.int c := by
      rw [SymbolTable.int, agree.cell fun n is => shown n (by simp [Quad.reads, is])]
      rfl
    simp only [Quad.action, cell]
    exact .bind_self _ fun n => .ok (.goto n.toInt)
  | invalid code => exact .error _

end SymbolTable.AgreeOff

/-! ## Twins -/

namespace Machine

/-- The machine without a trace and with another memory. -/
def blind (m : Machine) (symbols : SymbolTable) : Machine := m.untraced.withSymbols symbols

theorem asked_withSymbols (m : Machine) (symbols : SymbolTable) (prompt : Text) :
    (m.withSymbols symbols).asked prompt =
      ((m.asked prompt).1, (m.asked prompt).2.withSymbols symbols) := by
  cases scripted : m.script.bind fun i => m.scripts[i]? with
  | some script =>
    obtain ⟨i, used, found⟩ := Option.bind_eq_some_iff.mp scripted
    rw [asked_of_script used found]
    exact asked_of_script (m := m.withSymbols symbols) used found prompt
  | none =>
    rw [asked_of_typed scripted]
    exact asked_of_typed (m := m.withSymbols symbols) scripted prompt

theorem view_blind (symbols : SymbolTable) : View (blind · symbols) (blind · symbols) where
  fetched _ := rfl
  ready m := congrArg (withSymbols · symbols) (m.fetched.traced_untraced _ _)
  traced m label message := congrArg (withSymbols · symbols) (m.traced_untraced label message)
  jump _ _ := rfl
  written := view_untraced.written
  write m bytes := congrArg (withSymbols · symbols) (view_untraced.write m bytes)
  clear := view_untraced.clear
  flushed m := congrArg (withSymbols · symbols) (view_untraced.flushed m)
  asked m prompt := by
    unfold blind
    rw [asked_withSymbols, asked_untraced]
  fault _ _ := rfl
  memory _ _ _ := rfl

/-- Two machines that differ in nothing but hidden cells and what they trace. -/
structure Twin (hidden : Nat → Prop) (m other : Machine) : Prop where
  memory : m.program.symbols.AgreeOff hidden other.program.symbols
  rest : other.untraced = m.untraced.withSymbols other.program.symbols

namespace Twin

variable {hidden : Nat → Prop} {m other next after : Machine} {halt : Halt}

theorem mono {more : Nat → Prop} (twin : Twin hidden m other) (weaker : ∀ i, hidden i → more i) :
    Twin more m other :=
  ⟨twin.memory.mono weaker, twin.rest⟩

theorem of_blind {symbols : SymbolTable} (agree : m.program.symbols.AgreeOff hidden symbols)
    (same : other.untraced = m.blind symbols) : Twin hidden m other := by
  obtain rfl : symbols = other.program.symbols :=
    (congrArg (fun machine => machine.program.symbols) same).symm
  exact ⟨agree, same⟩

theorem pc (twin : Twin hidden m other) : other.pc = m.pc := by
  have same := congrArg Machine.pc twin.rest
  exact same

theorem quads (twin : Twin hidden m other) : other.program.quads = m.program.quads := by
  have same := congrArg (fun machine => machine.program.quads) twin.rest
  exact same

theorem runFailure (twin : Twin hidden m other) (halt : Halt) :
    other.runFailure? halt = m.runFailure? halt := by
  have same := congrArg (runFailure? · halt) twin.rest
  exact same

theorem inside_iff (twin : Twin hidden m other) : other.Inside ↔ m.Inside := by
  unfold Inside
  rw [twin.pc, twin.quads]

theorem clear (twin : Twin hidden m other) : other.console.flush.1 = m.console.flush.1 := by
  rw [← view_untraced.clear, ← view_untraced.clear m, twin.rest]
  rfl

theorem concord (twin : Twin hidden m other) (shown : ∀ n : Nat, (n : Int) ∈ m.next.reads → ¬ hidden n) :
    Concord (SymbolTable.AgreeOff fun n => hidden n ∧ ¬ m.next.Writes n) m
      (m.blind other.program.symbols) where
  intent := twin.memory.action shown
  keeps silent := twin.memory.mono fun n hides =>
    ⟨hides, fun writes => by rw [writes.1] at silent; cases silent⟩
  names := twin.memory.alike.name
  answers i n does := by
    have read := Quad.does_of_action does
    cases read with
    | read is =>
      apply (twin.memory.stored m.next.c (.int n)).mono
      exact fun _ _ agree => agree.mono fun n ⟨hides, other⟩ => ⟨hides, fun writes => other writes.2⟩

/-- Twins go the same step, if it reads no hidden cell. What it writes is hidden no longer. -/
theorem steps (twin : Twin hidden m other) (shown : ∀ n : Nat, (n : Int) ∈ m.next.reads → ¬ hidden n)
    (steps : m.Steps next) :
    ∃ next', other.Steps next' ∧ Twin (fun n => hidden n ∧ ¬ m.next.Writes n) next next' := by
  have same : m.blind other.program.symbols = other.untraced := twin.rest.symm
  obtain ⟨symbols, agree, goes⟩ :=
    (view_blind other.program.symbols).steps (twin.concord shown) steps steps.within
  rw [same] at goes
  obtain ⟨next', steps', rest⟩ := steps_of_untraced goes
  exact ⟨next', steps', of_blind agree rest⟩

/-- Twins halt in the same way. -/
theorem halts (twin : Twin hidden m other) (shown : ∀ n : Nat, (n : Int) ∈ m.next.reads → ¬ hidden n)
    (halts : m.Halts halt after) : ∃ after', other.Halts halt after' ∧ Twin hidden after after' := by
  have same : m.blind other.program.symbols = other.untraced := twin.rest.symm
  have ends := (view_blind other.program.symbols).halts (twin.concord shown) halts Iff.rfl
  rw [same] at ends
  obtain ⟨after', halts', rest⟩ := halts_of_untraced ends
  have memory : after.program.symbols = m.program.symbols :=
    congrArg Program.symbols halts.sameState.program
  exact ⟨after', halts', of_blind (memory ▸ twin.memory) rest⟩

theorem flushed (twin : Twin hidden m other) : Twin hidden m.flushed other.flushed := by
  refine ⟨twin.memory, ?_⟩
  rw [← view_untraced.flushed, twin.rest]
  exact (view_blind _).flushed m

theorem closing (twin : Twin hidden m other) (cause : Option Failure) :
    Twin hidden (m.closing cause) (other.closing cause) := by
  have memory : (m.closing cause).program.symbols = m.program.symbols :=
    congrArg Program.symbols (m.sameState_closing cause).program
  have agree : (m.closing cause).program.symbols.AgreeOff hidden other.program.symbols := by
    rw [memory]
    exact twin.memory
  apply of_blind agree
  rw [← view_untraced.closing, twin.rest]
  exact (view_blind _).closing cause

/-- The runs of twins end in the same way. -/
theorem ends {interruption : Option Failure} {halt : Option Halt} (twin : Twin hidden m other)
    (shown : ∀ n : Nat, (n : Int) ∈ m.next.reads → ¬ hidden n)
    (ends : m.Ends interruption halt after) :
    ∃ after', other.Ends interruption halt after' ∧ Twin hidden after after' := by
  cases ends with
  | halt inside halts =>
    obtain ⟨after', halts', twin'⟩ := twin.halts shown halts
    exact ⟨after', .halt (twin.inside_iff.mpr inside) halts', twin'⟩
  | interrupted inside steps called =>
    obtain ⟨next', steps', twin'⟩ := twin.steps shown steps
    exact ⟨_, .interrupted (twin.inside_iff.mpr inside) steps' called,
      (twin'.mono fun _ hides => hides.1).closing _⟩
  | past outside clear =>
    exact ⟨_, .past (mt twin.inside_iff.mp outside) (twin.clear.trans clear), twin.flushed⟩
  | unflushed outside fails =>
    exact ⟨_, .unflushed (mt twin.inside_iff.mp outside) (twin.clear.trans fails),
      twin.flushed.closing _⟩

end Twin

/-! ## Runs of twins -/

/-- The places of the quads that a run fetches, from the next quad on, for at most `fuel` quads. -/
def visits (context : Context) : (done fuel : Nat) → Machine → List Nat
  | _, 0, _ => []
  | done, fuel + 1, m =>
    if m.Inside then m.pc :: (m.following (context done)).elim [] (visits context (done + 1) fuel) else []

variable {hidden : Nat → Prop} {context : Context} {m other next after : Machine} {done fuel : Nat}

theorem visits_of_steps (steps : m.Steps next) (quiet : context done = none) :
    m.visits context done (fuel + 1) = m.pc :: next.visits context (done + 1) fuel := by
  rw [visits, if_pos steps.started, quiet, steps.following]
  rfl

theorem visits_of_ends {halt : Option Halt} (ends : m.Ends (context done) halt after) :
    m.visits context done (fuel + 1) = if m.Inside then [m.pc] else [] := by
  unfold visits
  split
  · rw [ends.following ‹_›]
    rfl
  · rfl

/-- Two runs that come to the same, and leave machines that are related. -/
inductive SameResult (R : Machine → Machine → Prop) :
    EStateM.Result Halt Machine Unit → EStateM.Result Halt Machine Unit → Prop
  | ok {m other : Machine} (related : R m other) : SameResult R (.ok () m) (.ok () other)
  | error {m other : Machine} (halt : Halt) (related : R m other) :
      SameResult R (.error halt m) (.error halt other)

theorem SameResult.ended {R : Machine → Machine → Prop} (related : R m other) (halt : Option Halt) :
    SameResult R (m.ended halt) (other.ended halt) := by
  cases halt with
  | none => exact .ok related
  | some halt => exact .error halt related

/-- The runs of machines that differ in what is not written yet visit the same places and come to the
same. -/
theorem Twin.runWithin {cells : Nat → Prop} {code : List Quad} (first : WritesFirst cells code)
    (context : Context) (fuel : Nat) : ∀ (done : Nat) (m other : Machine), m.program.quads.code = code →
      Twin (fun i => cells i ∧ Unwritten code i m.pc) m other →
      other.visits context done fuel = m.visits context done fuel ∧
        SameResult (Twin cells) (Exec.runWithin context done fuel m)
          (Exec.runWithin context done fuel other) := by
  induction fuel with
  | zero =>
    intro done m other _ twin
    exact ⟨rfl, .error .outOfFuel (twin.mono fun _ hides => hides.1)⟩
  | succ fuel ih =>
    intro done m other quads twin
    have shown (n : Nat) (reads : (n : Int) ∈ m.next.reads) : ¬ (cells n ∧ Unwritten code n m.pc) := by
      rintro ⟨member, unwritten⟩
      by_cases inside : m.Inside
      · exact first member unwritten (quads ▸ inside.code) reads
      · rw [next_of_outside inside] at reads
        cases reads
    obtain ⟨quiet, next, steps⟩ | ⟨halt, after, ends⟩ := steps_or_ends (context done) m
    · obtain ⟨next', steps', twin'⟩ := twin.steps shown steps
      have code' : next.program.quads.code = code := by rw [steps.program.1, quads]
      -- what is hidden after the step was hidden before, and the quad on the way has not written it
      have later : Twin (fun i => cells i ∧ Unwritten code i next.pc) next next' := by
        refine twin'.mono fun i ⟨⟨member, unwritten⟩, keeps⟩ => ⟨member, ?_⟩
        exact .later unwritten (quads ▸ steps.started.code) keeps steps.pc
      obtain ⟨visits, same⟩ := ih (done + 1) next next' code' later
      rw [visits_of_steps steps quiet, visits_of_steps steps' quiet, runWithin_of_steps steps quiet,
        runWithin_of_steps steps' quiet, twin.pc, visits]
      exact ⟨rfl, same⟩
    · obtain ⟨after', ends', twin'⟩ := twin.ends shown ends
      rw [visits_of_ends ends, visits_of_ends ends', runWithin_of_ends ends, runWithin_of_ends ends',
        twin.pc]
      refine ⟨?_, .ended (twin'.mono fun _ hides => hides.1) halt⟩
      simp only [twin.inside_iff]

theorem Twin.rewind (twin : Twin hidden m other) : Twin hidden m.rewind other.rewind :=
  ⟨twin.memory, congrArg Machine.rewind twin.rest⟩

/-- The runs of twins come to the same, if the code reads none of the cells in which they differ before it
has written it. -/
theorem Twin.run {cells : Nat → Prop} (twin : Twin cells m other)
    (first : WritesFirst cells m.program.quads.code) (context : Context) (fuel : Nat) :
    other.rewind.visits context 0 fuel = m.rewind.visits context 0 fuel ∧
      (other.run context fuel).1 = (m.run context fuel).1 ∧
      Twin cells (m.run context fuel).2 (other.run context fuel).2 := by
  have start : Twin (fun i => cells i ∧ Unwritten m.program.quads.code i 0) m.rewind other.rewind :=
    twin.rewind.mono fun _ member => ⟨member, .start⟩
  obtain ⟨visits, same⟩ := Twin.runWithin first context fuel 0 m.rewind other.rewind rfl start
  refine ⟨visits, ?_⟩
  unfold Machine.run
  generalize Exec.runWithin context 0 fuel m.rewind = result at same ⊢
  generalize Exec.runWithin context 0 fuel other.rewind = result' at same ⊢
  cases same with
  | ok related => exact ⟨rfl, related⟩
  | error halt related =>
    cases halt with
    | outOfFuel => exact ⟨rfl, related⟩
    | stopped | crashed => exact ⟨congrArg RunEnd.finished (related.runFailure _), related⟩

/-- A machine and the same machine with another value in a cell. -/
theorem twin_modify {i : Nat} {cell : Cell} (value : Value)
    (here : m.program.symbols.cells[i]? = some cell) (same : value.kind = cell.value.kind)
    (hides : hidden i) : Twin hidden m (m.withSymbols (m.program.symbols.modify i cell.usage value)) := by
  refine ⟨⟨.modify here same, fun j shown => ?_⟩, rfl⟩
  have other : i ≠ j := by
    rintro rfl
    exact shown hides
  exact (SymbolTable.cells_modify ..).trans (if_neg other)

theorem Twin.events (twin : Twin hidden m other) (number : Nat) :
    other.console.devices.events number = m.console.devices.events number := by
  have same := congrArg (fun machine => machine.console.devices.events number) twin.rest
  exact (other.console.devices.events_untraced number).symm.trans
    (same.trans (m.console.devices.events_untraced number))

/-- Two runs have the same course: they fetch the same quads, end alike and leave the same devices, input
and cells, but for the `hidden` cells. -/
structure SameCourse (hidden : Nat → Prop) (m other : Machine) (context : Context) (fuel : Nat) :
    Prop where
  visits : other.rewind.visits context 0 fuel = m.rewind.visits context 0 fuel
  ends : (other.run context fuel).1 = (m.run context fuel).1
  events : ∀ number, (other.run context fuel).2.console.devices.events number =
    (m.run context fuel).2.console.devices.events number
  input : (other.run context fuel).2.input = (m.run context fuel).2.input
  scripts : (other.run context fuel).2.scripts = (m.run context fuel).2.scripts
  cells : ∀ i : Nat, ¬ hidden i → (other.run context fuel).2.program.symbols.cells[i]? =
    (m.run context fuel).2.program.symbols.cells[i]?
  /-- The machines are ready for a further run. -/
  twin : (m.run context fuel).2.Twin hidden (other.run context fuel).2

end Machine

/-- Temporaries carry nothing over: each is written before it is read, so machines that differ in
temporaries alone fetch the same quads and do the same, in every run. -/
theorem temporaries_carry_nothing (options : CompileOptions) (input : Input)
    (accepted : (compile options input).verdict = .accepted) :
    let temporary := fun i : Nat => (compile options input).program.symbols.IsTemporary i
    let quads := (compile options input).program.quads
    WritesFirst temporary quads.code ∧
    ∀ (m other : Machine) (context : Context) (fuel : Nat), m.program.quads = quads →
      m.Twin temporary other → m.SameCourse temporary other context fuel := by
  intro temporary quads
  have first : WritesFirst temporary quads.code := compile_writesFirst accepted
  constructor
  · exact first
  · intro m other context fuel same twin
    obtain ⟨visits, ends, later⟩ := twin.run (same ▸ first) context fuel
    have input := congrArg Machine.input later.rest
    have scripts := congrArg Machine.scripts later.rest
    exact ⟨visits, ends, later.events, input, scripts, later.memory.cells, later⟩

/-- The temporary that tells how far a counter has to go starts with another value, and all the same three
squares are printed. -/
theorem spoiled_distance_is_not_read :
    let input := Input.ofString "unit p; var i: integer; begin
      for i := 1 to 2 + 1 do writeln(i * i) end."
    let temporary := fun i : Nat => (compile {} input).program.symbols.IsTemporary i
    let m := Machine.buffered (compile {} input).program []
    let other := m.withSymbols (m.program.symbols.modify 6 .constant (.int 77))
    temporary 6 ∧ m.Twin temporary other ∧
      other.rewind.visits .background 0 40 = m.rewind.visits .background 0 40 ∧
      (other.run .background 40).2.console.devices.events 0 =
        (m.run .background 40).2.console.devices.events 0 ∧
      (m.run .background 40).2.console.devices.received 0 = [49, 10, 52, 10, 57, 10] := by
  intro input temporary m other
  obtain ⟨verdict, made, shape, printed⟩ : (compile {} input).verdict.isAccepted = true ∧
      (compile {} input).program.symbols.cells[6]?.map Cell.name = some (Rule.temporaryName 3) ∧
      m.program.symbols.cells[6]?.map (·.shape.2) = some (.constant, .integer) ∧
      (m.run .background 40).2.console.devices.received 0 = [49, 10, 52, 10, 57, 10] := by
    decide +kernel
  have accepted := Verdict.eq_accepted verdict
  have spoiled : temporary 6 := by
    obtain ⟨cell, here, named⟩ := Option.map_eq_some_iff.mp made
    refine ⟨3, ?_⟩
    rw [← named]
    exact SymbolTable.name_of_cell here
  have twin : m.Twin temporary other := by
    obtain ⟨cell, here, is⟩ := Option.map_eq_some_iff.mp shape
    have usage : cell.usage = .constant := congrArg Prod.fst is
    have kind : Kind.integer = cell.value.kind := (congrArg Prod.snd is).symm
    have twin : m.Twin temporary _ := Machine.twin_modify (.int 77) here kind spoiled
    rw [usage] at twin
    exact twin
  have quads (program : Program) : (Machine.buffered program []).program.quads = program.quads := rfl
  obtain ⟨_, runs⟩ := temporaries_carry_nothing {} input accepted
  have course := runs m other .background 40 (quads _) twin
  exact ⟨spoiled, twin, course.visits, course.events 0, printed⟩

end MiniPascal
