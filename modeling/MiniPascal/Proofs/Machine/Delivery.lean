import MiniPascal.Proofs.Machine.Transcript
import MiniPascal.Proofs.Machine.Typing

/-! # What arrives of what a run writes

A run comes to its end in few ways: an operation of the console has failed, or all of the transcript was
sent and the run is closed with a flush, is broken off without one, or has gone past the last quad. So
devices that never fail have received all of the transcript unless the run is broken off.

Other devices may fail, and a failure may show up late: when a buffer is full, before a prompt, at the
prompt, or when the run ends. The failure of the last flush is dropped if the run ends for another cause,
and the end of the input is no failure. Even so no output gets lost in a run that reports none: before an
integer is asked for everything is flushed, so there is nothing left to lose.
-/

namespace MiniPascal

open Console

/-- A device that says so when it does not accept all it is offered, and does not call that the end of
the input. -/
structure Manner.Candid (manner : Manner) : Prop where
  honest : manner.Honest
  fails : manner.FailsWith fun failure => failure.isEndOfInput = false

namespace Console

/-- Each outlet leads to a candid device of its own, and none has failed. -/
structure Candid (console : Console) : Prop where
  served : console.Served Manner.Candid
  fluent : console.Fluent

variable {console after : Console}

theorem Passes.candid {bytes : Bytes} (passes : Passes bytes console after) (candid : console.Candid) :
    after.Candid :=
  ⟨passes.served candid.served, passes.fluent⟩

theorem Candid.frank (candid : console.Candid) : console.Frank :=
  ⟨candid.served.mono fun _ => Manner.Candid.honest, candid.fluent⟩

theorem Candid.fails (candid : console.Candid) :
    console.FailsWith fun failure => failure.isEndOfInput = false := by
  refine ⟨fun number leads manner found => ?_, fun outlet member failure stuck => ?_, rfl⟩
  · obtain ⟨known, here, good⟩ := candid.served.devices number leads
    rw [here] at found
    cases found
    exact good.fails
  · rw [candid.fluent outlet member] at stuck
    cases stuck

theorem Trips.not_endOfInput {failure : Failure} (trips : console.Trips failure)
    (candid : console.Candid) : failure.isEndOfInput = false := by
  cases trips with
  | write passes fails => exact (write_accounts (passes.candid candid).fails _).reported failure fails
  | flush passes fails => exact (flush_accounts (passes.candid candid).fails).reported failure fails

/-- With nothing held back, a flush changes nothing, not even if it fails. -/
theorem Outlet.flush_of_drained {outlet : Outlet} (clear : outlet.stuck = none)
    (empty : outlet.pending = []) (devices : Devices) :
    (outlet.flush devices).2.1 = outlet ∧
      (∀ number, (outlet.flush devices).2.2.manner? number = devices.manner? number) ∧
      ∀ number, (outlet.flush devices).2.2.received number = devices.received number := by
  cases outlet with
  | direct => exact ⟨rfl, fun _ => rfl, fun _ => rfl⟩
  | flushing device =>
    exact ⟨rfl, Devices.manner?_flush _ _, fun number => Devices.received_flush _ _ _⟩
  | buffered buffer =>
    have same : buffer.flush devices = (none, buffer, devices) := Buffer.flush_of_empty clear empty
    simp only [Outlet.flush, same, implies_true, and_self]

theorem flushAll_of_drained (outlets : List Outlet) : ∀ devices : Devices,
    (∀ outlet ∈ outlets, outlet.stuck = none) → (∀ outlet ∈ outlets, outlet.pending = []) →
    (flushAll devices outlets).2.1 = outlets ∧
      (∀ number, (flushAll devices outlets).2.2.manner? number = devices.manner? number) ∧
      ∀ number, (flushAll devices outlets).2.2.received number = devices.received number := by
  induction outlets with
  | nil =>
    intro devices _ _
    exact ⟨rfl, fun _ => rfl, fun _ => rfl⟩
  | cons outlet rest ih =>
    intro devices clear empty
    obtain ⟨same, manner, received⟩ := Outlet.flush_of_drained (clear outlet List.mem_cons_self)
      (empty outlet List.mem_cons_self) devices
    obtain ⟨others, manners, rests⟩ := ih (outlet.flush devices).2.2
      (fun found member => clear found (List.mem_cons_of_mem _ member))
      (fun found member => empty found (List.mem_cons_of_mem _ member))
    rw [flushAll_cons, same, others]
    exact ⟨rfl, fun number => (manners number).trans (manner number),
      fun number => (rests number).trans (received number)⟩

theorem Drained.flush (drained : console.Drained) (fluent : console.Fluent) :
    Passes [] console console.flush.2 ∧ console.flush.2.Drained := by
  obtain ⟨same, manner, received⟩ :=
    flushAll_of_drained console.outlets console.devices fluent drained
  have outlets : console.flush.2.outlets = console.outlets := same
  have empty : console.flush.2.Drained := by rwa [Drained, outlets]
  refine ⟨⟨?_, ?_, manner, ?_, fun number _ => ?_, fun number _ => received number⟩, empty⟩
  · rw [numbers, outlets]
    rfl
  · rw [outlets]
  · rwa [Fluent, outlets]
  · rw [sent, sent, empty.pending, drained.pending, List.append_nil, List.append_nil, List.append_nil]
    exact received number

end Console

/-! ## Faults are no end of input -/

theorem Failure.Numerical.not_endOfInput {cause : Failure} (numerical : cause.Numerical) :
    cause.isEndOfInput = false := by
  cases numerical <;> rfl

theorem numerical_of_compute {op : Opcode} {x y : Value} {cause : Failure}
    (fails : compute op x y = .error (.fault cause)) : cause.Numerical := by
  have crashes (text : x.kind = .text ∨ y.kind = .text) : cause.Numerical := by
    obtain ⟨held, wanted, crash⟩ := compute_text op text
    rw [crash] at fails
    cases fails
  obtain left | text := x.kind_cases
  · obtain right | text := y.kind_cases
    · obtain ⟨value, computes, _⟩ | ⟨other, fault, numerical⟩ := compute_numeric op left right
      · rw [computes] at fails
        cases fails
      · rw [fault] at fails
        cases fails
        exact numerical
    · exact crashes (.inr text)
  · exact crashes (.inl text)

theorem SymbolTable.numerical_of_stored {symbols : SymbolTable} {i : Int} {value : Value}
    {cause : Failure} (fails : symbols.stored i value = .error (.fault cause)) : cause.Numerical := by
  cases found : symbols.cell? i with
  | none =>
    rw [stored, kind, SymbolTable.cell, found] at fails
    cases fails
  | some cell =>
    obtain ⟨n, rfl, here⟩ := exists_nat_of_cell? found
    obtain same | ⟨⟨_, _, _, crash⟩, _⟩ := stored_fails here fails
    · cases same
      exact .overflow
    · cases crash

theorem Quad.Stuck.not_endOfInput {q : Quad} {symbols : SymbolTable} {cause : Failure}
    (stuck : q.Stuck symbols (.fault cause)) : cause.isEndOfInput = false := by
  cases stuck with
  | uncomputed _ _ _ fails => exact (numerical_of_compute fails).not_endOfInput
  | unstored _ _ _ _ fails => exact (SymbolTable.numerical_of_stored fails).not_endOfInput
  | unmoved _ _ fails => exact (SymbolTable.numerical_of_stored fails).not_endOfInput
  | invalid => rfl

theorem SymbolTable.fault_of_stored {symbols : SymbolTable} {i : Int} {value : Value} {cause : Failure}
    (fails : symbols.stored i value = .error (.fault cause)) : cause.isEndOfInput = false :=
  (numerical_of_stored fails).not_endOfInput

/-! ## How a run concludes -/

/-- A run ends in an orderly way. -/
def Halt.Orderly : Halt → Prop
  | .stopped _ => True
  | .crashed _ | .outOfFuel => False

namespace Machine

variable {m last after : Machine} {interruption : Option Failure} {bytes : Bytes} {console : Console}

/-- How a run that was to write `bytes` ends. If the flush at the end may fail without a report, nothing
is left to flush. -/
inductive Concludes (interruption : Option Failure) (bytes : Bytes) (console : Console) :
    Option Halt → Machine → Prop
  | tripped {failure : Failure} {after : Machine} (trips : console.Trips failure) :
      Concludes interruption bytes console (some (.stopped (some failure))) after
  | closed {m : Machine} (cause : Option Failure) (passes : Passes bytes console m.console)
      (dropped : ∀ failure ∈ cause, failure.isEndOfInput = true →
        m.console.Drained ∨ interruption = some failure) :
      Concludes interruption bytes console (some (.stopped (cause.or m.console.flush.1))) (m.closing cause)
  | broken {m : Machine} {error : AccessError} (passes : Passes bytes console m.console) :
      Concludes interruption bytes console (some (.crashed error)) m
  | past {m : Machine} (passes : Passes bytes console m.console) (clear : m.console.flush.1 = none) :
      Concludes interruption bytes console none m.flushed

theorem Concludes.after_passes {more : Bytes} {middle : Console} {halt : Option Halt}
    (concludes : Concludes interruption more middle halt after) (passes : Passes bytes console middle) :
    Concludes interruption (bytes ++ more) console halt after := by
  cases concludes with
  | tripped trips => exact .tripped (trips.of_passes passes)
  | closed cause later dropped => exact .closed cause (passes.trans later) dropped
  | broken later => exact .broken (passes.trans later)
  | past later clear => exact .past (passes.trans later) clear

theorem Concludes.trouble {trouble : Trouble} (passes : Passes bytes console m.console)
    (inner : ∀ cause, trouble = .fault cause → cause.isEndOfInput = false) :
    Concludes interruption bytes console (some (m.ending trouble).1) (m.ending trouble).2 := by
  cases trouble with
  | fault cause =>
    apply Concludes.closed (some (m.faultBy cause)) passes
    rintro _ ⟨⟩ ended
    have other : (m.faultBy cause).isEndOfInput = false := inner cause rfl
    rw [other] at ended
    cases ended
  | crash error => exact .broken passes

theorem Halts.concludes {halt : Halt} (halts : m.Halts halt after) (frank : m.console.Frank) :
    Concludes interruption m.utterance m.console (some halt) after := by
  have ready := ready_passes frank.fluent
  cases halts with
  | limit reached =>
    simp only [utterance, if_pos reached]
    exact .trouble (m := m.fetched) (.refl frank.fluent) (by rintro _ ⟨⟩; rfl)
  | stop within does =>
    simp only [utterance, if_neg within, does]
    exact .closed none ready (by rintro _ ⟨⟩)
  | trouble within does =>
    simp only [utterance, if_neg within, does]
    apply Concludes.trouble ready
    rintro cause rfl
    exact (Quad.stuck_of_action does).not_endOfInput
  | badJump within does bad =>
    simp only [utterance, if_neg within, does]
    exact .trouble ready (by rintro _ ⟨⟩; rfl)
  | unshown within does fails => exact .tripped (.write ready fails)
  | unflushed within does fails => exact .tripped (.flush ready fails)
  | unnamed within does clear missing =>
    simp only [utterance, if_neg within, does, missing]
    have flushed := (flush_passes (ready.frank frank).served clear).1
    exact .broken (m := m.ready.flushed) (ready.trans flushed)
  | @unanswered _ name failure within does clear named fails =>
    simp only [utterance, if_neg within, does, named]
    obtain ⟨other, same, trips⟩ | ⟨passes, drained⟩ := answered_passes frank clear name
    · rw [fails] at same
      cases same
      exact .tripped trips
    · exact .closed (some failure) passes fun _ _ _ => .inl drained
  | @unstored _ name _ _ within does clear named answers fails =>
    simp only [utterance, if_neg within, does, named]
    obtain ⟨other, same, _⟩ | ⟨passes, _⟩ := answered_passes frank clear name
    · rw [answers] at same
      cases same
    · apply Concludes.trouble passes
      rintro cause rfl
      exact SymbolTable.fault_of_stored fails

theorem Ends.concludes {halt : Option Halt} (ends : m.Ends interruption halt after)
    (frank : m.console.Frank) : Concludes interruption m.lastWords m.console halt after := by
  unfold lastWords
  cases ends with
  | halt inside halts =>
    rw [if_pos inside]
    exact halts.concludes frank
  | @interrupted failure _ inside steps called =>
    rw [if_pos inside]
    apply Concludes.closed (some failure) (steps.passes frank)
    rintro _ ⟨⟩ _
    exact .inr called
  | past outside clear =>
    rw [if_neg outside]
    exact .past (.refl frank.fluent) clear
  | unflushed outside fails => exact .tripped (.flush (.refl frank.fluent) fails)

/-- Every run concludes what it has written, or has not ended yet. -/
theorem runWithin_concludes (context : Context) (done fuel : Nat) (m : Machine)
    (frank : m.console.Frank) :
    Leads (Exec.runWithin context done fuel) m
      (fun _ after => ∃ n, Concludes (context n) (m.transcript context done fuel) m.console none after)
      (fun halt after => halt = .outOfFuel ∧
          Passes (m.transcript context done fuel) m.console after.console ∨
        ∃ n, Concludes (context n) (m.transcript context done fuel) m.console (some halt) after) := by
  have ended {halt : Option Halt} {after : Machine} (ends : EndsWithin context done fuel m halt after) :
      ∃ n, Concludes (context n) (m.transcript context done fuel) m.console halt after := by
    obtain ⟨bytes, n, last, utters, ends, all⟩ := ends.utters
    have passes := utters.passes frank
    rw [all]
    exact ⟨n, (ends.concludes (passes.frank frank)).after_passes passes⟩
  apply (runWithin_ends context fuel done m).mono
  · exact fun _ _ ends => ended ends
  · rintro halt after (⟨rfl, goes⟩ | ends)
    · obtain ⟨bytes, utters, writes⟩ := goes.utters
      have all : m.transcript context done fuel = bytes := by
        have none := writes 0
        rwa [Nat.zero_add, transcript, List.append_nil] at none
      rw [all]
      exact .inl ⟨rfl, utters.passes frank⟩
    · exact .inr (ended ends)

/-! ## Devices that never fail -/

/-- How a run that was sent `bytes` ends. -/
structure Delivers (bytes : Bytes) (console : Console) (halt : Halt) (after : Machine) : Prop where
  passes : Passes bytes console after.console
  drained : halt.Orderly → after.console.Drained

/-- An orderly end leaves nothing held back. -/
theorem Delivers.closing (steady : console.Steady) (passes : Passes bytes console m.console)
    (cause : Option Failure) (halt : Halt) : Delivers bytes console halt (m.closing cause) := by
  have steady' := passes.steady steady
  obtain ⟨flushed, empty⟩ := flush_passes steady'.frank.served steady'.flush
  have all := passes.trans flushed
  rw [List.append_nil] at all
  refine ⟨traced_passes (m := m.flushed) all _ _, fun _ => ?_⟩
  unfold Machine.closing traced
  split
  · exact empty
  · exact empty

theorem Concludes.delivers {halt : Option Halt} (concludes : Concludes interruption bytes console halt after)
    (steady : console.Steady) : Delivers bytes console (halt.getD (.stopped none)) after := by
  cases concludes with
  | tripped trips => exact absurd trips steady.not_trips
  | closed cause passes _ => exact .closing steady passes cause _
  | broken passes => exact ⟨passes, False.elim⟩
  | past passes clear =>
    obtain ⟨flushed, empty⟩ := flush_passes (passes.steady steady).frank.served clear
    have all := passes.trans flushed
    rw [List.append_nil] at all
    exact ⟨all, fun _ => empty⟩

/-- Every run on a steady console sends its transcript to the devices. -/
theorem runWithin_delivers (context : Context) (done fuel : Nat) (m : Machine)
    (steady : m.console.Steady) :
    Leads (Exec.runWithin context done fuel) m
      (fun _ => Delivers (m.transcript context done fuel) m.console (.stopped none))
      (Delivers (m.transcript context done fuel) m.console) := by
  apply (runWithin_concludes context done fuel m steady.frank).mono
  · rintro _ after ⟨_, concludes⟩
    exact concludes.delivers steady
  · rintro halt after (⟨rfl, passes⟩ | ⟨_, concludes⟩)
    · exact ⟨passes, False.elim⟩
    · exact concludes.delivers steady

end Machine

/-- A run is reported to have been broken off by an access to the memory. -/
def Failure.IsBrokenAccess (failure : Failure) : Prop :=
  ∃ pc quad error, failure = .fault pc quad (.brokeOff "VM" (.access error))

/-- Devices that never fail are sent exactly what a run writes, whenever its context ends it. It has
arrived, unless a broken access keeps it in a buffer. -/
theorem run_delivers_output (context : Context) (fuel : Nat) (m after : Machine)
    (failure : Option Failure) (steady : m.console.Steady)
    (ends : m.run context fuel = (.finished failure, after)) :
    ∀ number ∈ m.console.numbers,
      after.console.devices.received number ++ after.console.pending number =
        m.console.devices.received number ++ m.console.pending number ++ m.output context fuel ∧
      ((∀ outlet ∈ m.console.outlets, outlet.buffers = false) ∨
        (∀ reported, failure = some reported → ¬ reported.IsBrokenAccess) →
        after.console.pending number = []) := by
  have leads := Machine.runWithin_delivers context 0 fuel m.rewind steady
  intro number member
  cases ran : Exec.runWithin context 0 fuel m.rewind with
  | ok _ last =>
    have delivers := Leads.ok leads ran
    simp only [Machine.run, ran, Prod.mk.injEq] at ends
    obtain ⟨_, rfl⟩ := ends
    exact ⟨delivers.passes.sent number member, fun _ => (delivers.drained trivial).pending number⟩
  | error halt last =>
    have delivers := Leads.error leads ran
    cases halt with
    | outOfFuel => simp [Machine.run, ran] at ends
    | stopped cause =>
      simp only [Machine.run, ran, Prod.mk.injEq] at ends
      obtain ⟨_, rfl⟩ := ends
      exact ⟨delivers.passes.sent number member, fun _ => (delivers.drained trivial).pending number⟩
    | crashed error =>
      simp only [Machine.run, ran, Prod.mk.injEq, RunEnd.finished.injEq] at ends
      obtain ⟨reports, rfl⟩ := ends
      refine ⟨delivers.passes.sent number member, ?_⟩
      rintro (unbuffered | unbroken)
      · exact delivers.passes.pending_of_unbuffered unbuffered number
      · exact absurd ⟨_, _, error, rfl⟩ (unbroken _ reports.symm)

/-- A machine that writes to a device through a buffer. -/
def Machine.buffered (program : Program) (options : List MachineOption) : Machine :=
  .new program ⟨#[⟨.plain, .willing, 0, 0, 0⟩], []⟩ (.output (.device 0) :: options)

/-- A program that prints an integer again and again. -/
def printForever : Program :=
  ⟨⟨1, #[⟨"a", .var, .int 7⟩], [(['A'], 0)]⟩, ⟨2, #[⟨.print, 0, 0, 0⟩, ⟨.jmp, 0, 0, 0⟩]⟩⟩

/-- The context ends the run after its second quad, and the line arrives. -/
theorem cancelled_run_delivers_output :
    let m := Machine.buffered printForever []
    let context : Context := fun n => if n = 0 then none else some .cancelled
    let after := (m.run context 3).2
    (m.run context 3).1 = .finished (some .cancelled) ∧
      after.console.devices.received 0 = Text.bytes "7\n" ∧ after.console.pending 0 = [] := by
  intro m context after
  have steady : m.console.Steady := steady_single Manner.reliable_willing rfl rfl
  have ends : m.run context 3 = (.finished (some .cancelled), after) := rfl
  obtain ⟨sent, drained⟩ := run_delivers_output context 3 m after _ steady ends 0 (by decide)
  have unbroken : ∀ reported : Failure, some Failure.cancelled = some reported →
      ¬ reported.IsBrokenAccess := by
    rintro _ ⟨⟩ ⟨pc, quad, error, broken⟩
    cases broken
  have empty := drained (.inr unbroken)
  rw [empty, List.append_nil] at sent
  exact ⟨congrArg Prod.fst ends, sent.trans (by decide +kernel), empty⟩

/-- A program that prints an integer and then moves it to a cell for texts. -/
def printThenMisplace : Program :=
  ⟨⟨2, #[⟨"a", .var, .int 7⟩, ⟨"s", .var, .text []⟩], [(['A'], 0), (['S'], 1)]⟩,
    ⟨3, #[⟨.print, 0, 0, 0⟩, ⟨.mov, 0, 0, 1⟩, ⟨.stop, 0, 0, 0⟩]⟩⟩

/-- The line is printed, the run is broken off at the next quad, and the line does not arrive. -/
theorem broken_run_holds_back_output :
    let m := Machine.buffered printThenMisplace []
    let after := (m.run .background 3).2
    m.console.Steady ∧ m.console.pending 0 = [] ∧
      (m.run .background 3).1 = .finished (some (.fault 1 ⟨.mov, 0, 0, 1⟩
        (.brokeOff "VM" (.access (.wrongKind 1 .text .integer))))) ∧
      m.output .background 3 = [55, 10] ∧ after.console.devices.received 0 = [] :=
  ⟨steady_single Manner.reliable_willing rfl rfl, rfl, rfl, by decide +kernel, by decide +kernel⟩

/-! ## Devices that may fail -/

namespace Machine

variable {m after : Machine} {interruption : Option Failure} {bytes : Bytes} {console : Console}

/-- What has been sent has also arrived. -/
structure Arrives (bytes : Bytes) (console after : Console) : Prop where
  passes : Passes bytes console after
  drained : after.Drained

theorem Arrives.traced (arrives : Arrives bytes console m.console) (label message : Text) :
    Arrives bytes console (m.traced label message).console := by
  refine ⟨traced_passes arrives.passes label message, ?_⟩
  unfold Machine.traced
  split <;> exact arrives.drained

/-- A run that ends with nothing held back may end for any cause. -/
theorem Arrives.closing (arrives : Arrives bytes console m.console) (cause : Option Failure) :
    Arrives bytes console (m.closing cause).console := by
  obtain ⟨flushed, empty⟩ := arrives.drained.flush arrives.passes.fluent
  have passes := arrives.passes.trans flushed
  rw [List.append_nil] at passes
  exact Arrives.traced (m := m.flushed) ⟨passes, empty⟩ _ _

theorem Arrives.flushed (frank : console.Frank) (passes : Passes bytes console m.console)
    (clear : m.console.flush.1 = none) : Arrives bytes console m.flushed.console := by
  obtain ⟨flushed, empty⟩ := flush_passes (passes.frank frank).served clear
  have all := passes.trans flushed
  rw [List.append_nil] at all
  exact ⟨all, empty⟩

/-- A failure that goes back to the end of the input is not reported. -/
theorem isEndOfInput_of_unreported (m : Machine) {failure : Failure}
    (unreported : m.runFailure? (.stopped (some failure)) = none) : failure.isEndOfInput = true := by
  change Option.filter (fun failure => !failure.isEndOfInput) (some failure) = none at unreported
  have dropped := Option.filter_eq_none_iff.mp unreported failure rfl
  simpa using dropped

/-- If no failure is reported, all that the run has written has arrived. -/
theorem Concludes.arrives {halt : Option Halt} (concludes : Concludes interruption bytes console halt after)
    (candid : console.Candid) (called : ∀ failure ∈ interruption, failure.isEndOfInput = false)
    (unreported : halt.bind after.runFailure? = none) : Arrives bytes console after.console := by
  have told {failure : Failure} (known : failure.isEndOfInput = false)
      (unreported : after.runFailure? (.stopped (some failure)) = none) : False := by
    rw [isEndOfInput_of_unreported after unreported] at known
    cases known
  cases concludes with
  | tripped trips => exact (told (trips.not_endOfInput candid) unreported).elim
  | @closed m cause passes dropped =>
    cases cause with
    | none =>
      cases clear : m.console.flush.1 with
      | none => exact (Arrives.flushed candid.frank passes clear).traced _ _
      | some failure =>
        have trips : console.Trips failure := .flush passes clear
        rw [clear] at unreported
        exact (told (trips.not_endOfInput candid) unreported).elim
    | some failure =>
      -- the flush may have failed, but then there was nothing to flush
      obtain drained | calls := dropped failure rfl (isEndOfInput_of_unreported m unreported)
      · exact Arrives.closing ⟨passes, drained⟩ _
      · exact (told (called failure calls) unreported).elim
  | broken => cases unreported
  | past passes clear => exact .flushed candid.frank passes clear

/-- After a run that reports no failure, every device has received what the run has written. -/
theorem run_arrives {context : Context} {fuel : Nat} (candid : m.console.Candid)
    (called : ∀ n, ∀ failure ∈ context n, failure.isEndOfInput = false)
    (succeeds : m.run context fuel = (.finished none, after)) :
    Arrives (m.output context fuel) m.console after.console := by
  have leads := runWithin_concludes context 0 fuel m.rewind candid.frank
  cases ran : Exec.runWithin context 0 fuel m.rewind with
  | ok _ final =>
    obtain ⟨n, concludes⟩ := Leads.ok leads ran
    simp only [run, ran, Prod.mk.injEq] at succeeds
    obtain ⟨_, rfl⟩ := succeeds
    exact concludes.arrives candid (called n) rfl
  | error halt final =>
    cases halt with
    | outOfFuel => simp [run, ran] at succeeds
    | stopped | crashed =>
      obtain ⟨⟨⟩, _⟩ | ⟨n, concludes⟩ := Leads.error leads ran
      simp only [run, ran, Prod.mk.injEq, RunEnd.finished.injEq] at succeeds
      obtain ⟨unreported, rfl⟩ := succeeds
      exact concludes.arrives candid (called n) unreported

/-! ## Machines that have not run yet -/

/-- A console that nothing has been written to. -/
structure Fresh (devices : Devices) (console : Console) : Prop where
  fluent : console.Fluent
  drained : console.Drained
  received : ∀ number, console.devices.received number = devices.received number

theorem fresh_outlets (devices : Devices) (target : Target) :
    ∀ outlet ∈ target.outlets devices, outlet.stuck = none ∧ outlet.pending = [] := by
  cases target with
  | nowhere => exact List.forall_mem_nil _
  | device number =>
    simp only [Target.outlets]
    cases devices.all[number]? with
    | none => exact List.forall_mem_nil _
    | some found =>
      cases style : found.style with
      | memory | flusher | plain => simp [style, Outlet.stuck, Outlet.pending]

theorem Fresh.configure {devices : Devices} (fresh : Fresh devices m.console) (option : MachineOption) :
    Fresh devices (m.configure option).console := by
  cases option with
  | output target =>
    have outlets := fresh_outlets m.console.flush.2.devices target
    refine ⟨fun outlet member => (outlets outlet member).1, fun outlet member => (outlets outlet member).2,
      fun number => ?_⟩
    exact (flushAll_of_drained _ _ fresh.fluent fresh.drained).2.2 number |>.trans (fresh.received number)
  | tee target =>
    have outlets := fresh_outlets m.console.devices target
    refine ⟨fun outlet member => ?_, fun outlet member => ?_, fresh.received⟩
    · obtain old | added := List.mem_append.mp member
      · exact fresh.fluent outlet old
      · exact (outlets outlet added).1
    · obtain old | added := List.mem_append.mp member
      · exact fresh.drained outlet old
      · exact (outlets outlet added).2
  | input | script | stepLimit | tracing | nothing | group => exact fresh

theorem fresh_new (program : Program) (devices : Devices) (options : List MachineOption) :
    Fresh devices (new program devices options).console := by
  have folds (options : List MachineOption) : ∀ m : Machine, Fresh devices m.console →
      Fresh devices (options.foldl Machine.configure m).console := by
    induction options with
    | nil => exact fun _ fresh => fresh
    | cons option rest ih => exact fun m fresh => ih _ (fresh.configure option)
  exact folds _ _ ⟨nofun, nofun, fun _ => rfl⟩

end Machine

/-- If the first run of a machine reports no failure, every device has received all that it has written.
Devices may fail, as long as they say so. -/
theorem successful_run_has_delivered (program : Program) (devices : Devices)
    (options : List MachineOption) (context : Context) (fuel : Nat) (after : Machine)
    (served : (Machine.new program devices options).console.Served Manner.Candid)
    (called : ∀ n, ∀ failure ∈ context n, failure.isEndOfInput = false)
    (succeeds : (Machine.new program devices options).run context fuel = (.finished none, after)) :
    ∀ number ∈ (Machine.new program devices options).console.numbers,
      after.console.devices.received number = devices.received number ++
        (Machine.new program devices options).output context fuel := by
  intro number leads
  obtain ⟨fluent, drained, received⟩ := Machine.fresh_new program devices options
  obtain ⟨passes, empty⟩ := Machine.run_arrives ⟨served, fluent⟩ called succeeds
  have all := passes.sent number leads
  rw [Console.sent, Console.sent, empty.pending, drained.pending, List.append_nil, List.append_nil,
    received] at all
  exact all

/-- A device whose third flush fails, and every one after it. -/
def Manner.tiring : Manner :=
  ⟨fun _ _ offered => .took offered none, fun number => if number < 2 then none else some (.reported "full")⟩

/-- A program that prints an integer and asks for another. -/
def printThenAsk : Program :=
  ⟨⟨1, #[⟨"a", .var, .int 7⟩], [(['A'], 0)]⟩, ⟨2, #[⟨.print, 0, 0, 0⟩, ⟨.read, 0, 0, 0⟩]⟩⟩

/-- The input has ended, so the failure of the last flush is dropped; the line and the prompt have
arrived. -/
theorem unanswered_prompt_has_arrived :
    let m := Machine.new printThenAsk ⟨#[⟨.flusher, .tiring, 0, 0, 0⟩], []⟩ [.output (.device 0)]
    let after := (m.run .background 3).2
    (m.run .background 3).1 = .finished none ∧
      after.console.devices.received 0 = Text.bytes "7\nEnter an integer for a: " := by
  intro m after
  have candid : Manner.tiring.Candid := by
    refine ⟨?_, ⟨nofun, nofun, fun fails => ?_⟩⟩
    · rintro _ _ offered _ ⟨⟩
      exact Nat.le_refl offered
    · dsimp only [Manner.tiring] at fails
      split at fails
      · cases fails
      · cases fails
        rfl
  have served : m.console.Served Manner.Candid :=
    ⟨by decide, fun number leads => ⟨.tiring, by rw [List.mem_singleton.mp leads]; rfl, candid⟩⟩
  have arrived := successful_run_has_delivered _ _ _ .background 3 after served nofun rfl 0 (by decide)
  exact ⟨rfl, arrived.trans (by decide +kernel)⟩

end MiniPascal
