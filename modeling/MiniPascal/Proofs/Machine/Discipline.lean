import MiniPascal.Proofs.Failures
import MiniPascal.Proofs.WellFormedCode

/-! # What a run may do to the memory

Any program may be run, with operations that do not exist, operands that are no cells and jumps that
lead nowhere. Even so, a step changes at most the value of the one cell that its quad names for the
result, and the cell keeps its kind; a step that ends the run changes nothing. A run that is reported
to have failed at a quad failed at the quad that it was executing, unless the failure was handed in from
outside.
-/

namespace MiniPascal

/-- The memory after a quad: as it was, or with another value of the same kind in the cell that the
quad stores into. -/
inductive Quad.Changes (q : Quad) (before : SymbolTable) : SymbolTable → Prop
  | nothing : Changes q before before
  | value {i : Nat} {cell : Cell} {value : Value} (stores : q.op.stores = true) (names : q.c = i)
      (here : before.cells[i]? = some cell) (kind : value.kind = cell.value.kind) :
      Changes q before (before.modify i cell.usage value)

namespace Quad.Changes

variable {q : Quad} {before after : SymbolTable}

theorem of_stored {value : Value} (stores : q.op.stores = true)
    (stored : before.stored q.c value = .ok after) : q.Changes before after := by
  obtain ⟨n, cell, result, names, here, _, kind, rfl⟩ := SymbolTable.converted_of_stored stored
  exact .value stores names here kind

end Quad.Changes

namespace Machine

variable {m last after : Machine} {halt : Halt}

/-- A step changes one value at most. -/
theorem Steps.changes (steps : m.Steps after) :
    m.next.Changes m.program.symbols after.program.symbols := by
  cases steps with
  | write within does =>
    cases Quad.does_of_action does with
    | arithmetic is _ _ _ stored =>
      exact .of_stored (by rw [Opcode.stores, is]; rfl) stored
    | mov is _ stored => exact .of_stored (by rw [is]; rfl) stored
  | goto | next | print =>
    change m.next.Changes _ m.ready.program.symbols
    rw [m.program_ready]
    exact .nothing
  | read within does clear named answers stored =>
    cases Quad.does_of_action does with
    | read is => exact .of_stored (by rw [is]; rfl) stored

/-! ## Failures from outside -/

/-- A failure that a run is handed in from outside: it is called off, or a device, a stream or a script
reports it. -/
inductive Given (context : Context) (m : Machine) (failure : Failure) : Prop
  | interruption {n : Nat} (called : context n = some failure)
  | refused {number n accepted offered : Nat} {manner : Manner} (leads : number ∈ m.console.numbers)
      (found : m.console.devices.manner? number = some manner)
      (tells : manner.write n accepted offered = .refused failure)
  | took {number n accepted offered count : Nat} {manner : Manner} (leads : number ∈ m.console.numbers)
      (found : m.console.devices.manner? number = some manner)
      (tells : manner.write n accepted offered = .took count (some failure))
  | unflushed {number n : Nat} {manner : Manner} (leads : number ∈ m.console.numbers)
      (found : m.console.devices.manner? number = some manner) (tells : manner.flush n = some failure)
  | stuck {outlet : Outlet} (member : outlet ∈ m.console.outlets) (tells : outlet.stuck = some failure)
  | stream {stream : Stream} (among : m.input.current = some stream ∨ stream ∈ m.input.queue)
      (tells : stream.failing = some failure)
  | script {script : Script} (member : script ∈ m.scripts) (tells : script.ending = failure)

/-- All failures that reach a machine from outside have a property. -/
structure FailsWith (P : Failure → Prop) (m : Machine) : Prop where
  console : m.console.FailsWith P
  input : m.input.FailsWith P
  scripts : ∀ script ∈ m.scripts, P script.ending

variable {P : Failure → Prop}

theorem failsWith_given (m : Machine) (context : Context) :
    m.FailsWith fun failure =>
      m.Given context failure ∨ failure = .shortWrite ∨ failure = .endOfInput := by
  refine ⟨⟨fun number leads manner found => ?_, ?_, .inr (.inl rfl)⟩, ⟨?_, ?_, .inr (.inr rfl)⟩, ?_⟩
  · exact ⟨fun tells => .inl (.refused leads found tells), fun tells => .inl (.took leads found tells),
      fun tells => .inl (.unflushed leads found tells)⟩
  · exact fun outlet member failure tells => .inl (.stuck member tells)
  · exact fun stream current failure tells => .inl (.stream (.inl current) tells)
  · exact fun stream member failure tells => .inl (.stream (.inr member) tells)
  · exact fun script member => .inl (.script member rfl)

theorem FailsWith.traced (fails : m.FailsWith P) (label message : Text) :
    (m.traced label message).FailsWith P := by
  unfold Machine.traced
  split
  · exact ⟨fails.console.trace _, fails.input, fails.scripts⟩
  · exact fails

theorem FailsWith.ready (fails : m.FailsWith P) : m.ready.FailsWith P := by
  have fetched : m.fetched.FailsWith P := ⟨fails.console, fails.input, fails.scripts⟩
  exact fetched.traced _ _

theorem FailsWith.asked (fails : m.FailsWith P) (prompt : Text) :
    (∀ failure, (m.asked prompt).1 = .error failure → P failure) ∧ (m.asked prompt).2.FailsWith P := by
  cases scripted : m.script.bind fun i => m.scripts[i]? with
  | some script =>
    obtain ⟨i, used, found⟩ := Option.bind_eq_some_iff.mp scripted
    have ends := fails.scripts script (Array.mem_of_getElem? found)
    rw [asked_of_script used found]
    refine ⟨fun failure tells => ?_, fails.console, fails.input, fun later member => ?_⟩
    · rw [Script.eq_ending_of_read tells]
      exact ends
    · rw [Array.set!_eq_setIfInBounds] at member
      obtain old | rfl := Array.mem_or_eq_of_mem_setIfInBounds member
      · exact fails.scripts later old
      · rw [Script.ending_read]
        exact ends
  | none =>
    rw [asked_of_typed scripted]
    obtain ⟨reported, console, input⟩ :=
      (LineReader.readWithin_asked prompt _ ⟨m.console, m.input⟩).accounts fails.console fails.input
    exact ⟨reported, console, input, fails.scripts⟩

theorem FailsWith.flushed (fails : m.FailsWith P) : m.flushed.FailsWith P :=
  ⟨(Console.flush_accounts fails.console).failsWith fails.console, fails.input, fails.scripts⟩

theorem Steps.failsWith (steps : m.Steps after) (fails : m.FailsWith P) : after.FailsWith P := by
  have ready := fails.ready
  cases steps with
  | write | goto | next => exact ⟨ready.console, ready.input, ready.scripts⟩
  | print =>
    have written := Console.write_accounts ready.console
    exact ⟨(written _).failsWith ready.console, ready.input, ready.scripts⟩
  | read =>
    obtain ⟨_, asked⟩ := ready.flushed.asked (Exec.prompt _)
    exact ⟨asked.console, asked.input, asked.scripts⟩

/-- What the surroundings of a machine report has the property. -/
theorem FailsWith.reported (fails : m.FailsWith P) {failure : Failure} (reports : m.Reports failure) :
    P failure := by
  obtain ⟨bytes, reported⟩ | reported | ⟨name, reported⟩ := reports
  · exact (Console.write_accounts fails.ready.console bytes).reported failure reported
  · exact (Console.flush_accounts fails.ready.console).reported failure reported
  · exact (fails.ready.flushed.asked _).1 failure reported

theorem Reaches.failsWith (reaches : m.Reaches last) (fails : m.FailsWith P) : last.FailsWith P :=
  Reaches.keeps reaches (fun _ _ steps => steps.failsWith) fails

/-! ## Where a run fails -/

theorem located_of_trouble {stuck : Machine} (same : SameState last.fetched stuck) (trouble : Trouble)
    {pc : Int} {quad : Quad} {cause : Failure}
    (reported : (stuck.ending trouble).2.runFailure? (stuck.ending trouble).1 =
      some (.fault pc quad cause)) : pc = last.pc ∧ quad = last.next := by
  have current : stuck.current = last.pc := same.current
  have fetched : stuck.quad = last.next := same.quad
  cases trouble with
  | fault cause =>
    have stops := eq_of_runFailure reported
    rw [faultBy, current, fetched] at stops
    cases stops
    exact ⟨rfl, rfl⟩
  | crash error =>
    change some (Failure.fault stuck.current stuck.quad _) = _ at reported
    rw [current, fetched] at reported
    cases reported
    exact ⟨rfl, rfl⟩

/-- A step that is reported as a failure at a quad is reported at the quad that was fetched. -/
theorem Halts.located (halts : last.Halts halt after) {pc : Int} {quad : Quad} {cause : Failure}
    (reported : after.runFailure? halt = some (.fault pc quad cause)) :
    (pc = last.pc ∧ quad = last.next) ∨ last.Reports (.fault pc quad cause) := by
  have ready : SameState last.fetched last.ready := last.fetched.sameState_traced _ _
  cases halts with
  | limit => exact .inl (located_of_trouble ⟨rfl, rfl, rfl, rfl, rfl, rfl⟩ _ reported)
  | stop => exact .inr (.inr (.inl (eq_of_runFailure reported)))
  | trouble | badJump => exact .inl (located_of_trouble ready _ reported)
  | unshown _ _ fails =>
    cases eq_of_runFailure reported
    exact .inr (.inl ⟨_, fails⟩)
  | unflushed _ _ fails =>
    cases eq_of_runFailure reported
    exact .inr (.inr (.inl fails))
  | unnamed =>
    exact .inl (located_of_trouble (ready.trans last.ready.sameState_flushed) (.crash _) reported)
  | unanswered _ _ _ _ fails =>
    cases eq_of_runFailure reported
    exact .inr (.inr (.inr ⟨_, fails⟩))
  | unstored =>
    exact .inl (located_of_trouble (ready.trans (last.sameState_answered _)) _ reported)

/-- The shape of the memory after a run. -/
theorem run_alike (m : Machine) (context : Context) (fuel : Nat) :
    m.program.symbols.Alike (m.run context fuel).2.program.symbols :=
  run_keeps (P := fun now => m.program.symbols.Alike now.symbols)
    (fun _ _ steps before => before.trans steps.program.2) (.refl _) context fuel

/-- A run that is reported to have failed at a quad ended there, or the failure was handed in. -/
theorem run_located {context : Context} {fuel : Nat} {pc : Int} {quad : Quad}
    {cause : Failure} (fails : (m.run context fuel).1 = .finished (some (.fault pc quad cause))) :
    m.Given context (.fault pc quad cause) ∨ ∃ last halt, m.rewind.Reaches last ∧
      Exec.step last = .error halt (m.run context fuel).2 ∧ last.Inside ∧
        pc = last.pc ∧ quad = last.next := by
  have given : m.rewind.FailsWith fun failure =>
      m.Given context failure ∨ failure = .shortWrite ∨ failure = .endOfInput := by
    obtain ⟨console, input, scripts⟩ := m.failsWith_given context
    exact ⟨console, input, scripts⟩
  have comes := m.run_comes context fuel
  generalize m.run context fuel = result at comes fails
  cases comes with
  | outOfFuel => cases fails
  | past => cases fails
  | @halted n last after halt goes ends =>
    have outside := Reaches.failsWith goes.reaches given
    have reported : after.runFailure? halt = some (.fault pc quad cause) := RunEnd.finished.inj fails
    cases ends with
    | halt inside halts =>
      obtain located | reports := halts.located reported
      · exact .inr ⟨last, halt, goes.reaches, halts.eq, inside, located⟩
      · exact .inl ((outside.reported reports).resolve_right (by simp))
    | interrupted _ _ called =>
      cases eq_of_runFailure reported
      exact .inl (.interruption called)
    | unflushed _ unflushed =>
      cases eq_of_runFailure reported
      have reports := (Console.flush_accounts outside.console).reported _ unflushed
      exact .inl (reports.resolve_right (by simp))

/-- In a state of a run that `m` has started the code and the shape of the cells are as before, and the
next step changes nothing but the cell that its quad stores into. -/
structure Keeps (m last : Machine) : Prop where
  quads : last.program.quads = m.program.quads
  size : last.program.symbols.size = m.program.symbols.size
  alike : m.program.symbols.Alike last.program.symbols
  step : ∀ after, Exec.step last = .ok () after →
    last.next.Changes last.program.symbols after.program.symbols
  halt : ∀ halt after, Exec.step last = .error halt after → after.program = last.program

end Machine

/-- A step changes at most the value of the cell that its quad stores into. A run that is reported to
have failed at a quad ended at that quad. -/
theorem runs_change_only_stored_values (m : Machine) (context : Context) (fuel : Nat) :
    (∀ last, m.rewind.Reaches last → m.Keeps last) ∧
    (m.run context fuel).2.program.symbols.size = m.program.symbols.size ∧
    m.program.symbols.Alike (m.run context fuel).2.program.symbols ∧
    ∀ pc quad cause, (m.run context fuel).1 = .finished (some (.fault pc quad cause)) →
      m.Given context (.fault pc quad cause) ∨ ∃ last halt, m.rewind.Reaches last ∧
        Exec.step last = .error halt (m.run context fuel).2 ∧
          pc = last.pc ∧ last.pc < m.program.quads.size ∧ quad = m.program.quads.get pc := by
  have shape := m.run_alike context fuel
  refine ⟨fun last reaches => ?_, shape.size, shape, fun pc quad cause fails => ?_⟩
  · obtain ⟨quads, alike⟩ := Machine.Reaches.program reaches
    refine ⟨quads, alike.size, alike, fun after ran => ?_, fun halt after ran => ?_⟩
    · have steps := Leads.ok (Machine.step_leads last) ran
      exact steps.changes
    · have halts := Leads.error (Machine.step_leads last) ran
      exact halts.sameState.program
  · obtain given | ⟨last, halt, reaches, ran, inside, rfl, rfl⟩ := Machine.run_located fails
    · exact .inl given
    · have quads : last.program.quads = m.program.quads := (Machine.Reaches.program reaches).1
      unfold Machine.Inside at inside
      unfold Machine.next
      rw [quads] at inside ⊢
      exact .inr ⟨last, halt, reaches, ran, rfl, inside, rfl⟩

end MiniPascal
