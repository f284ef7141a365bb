import MiniPascal.Proofs.Failures
import MiniPascal.Proofs.Machine.View

/-! # Tracing changes nothing

The lines of a trace are noted among all that leaves a machine. A machine whose trace is taken away does
the same as the machine that traces: nothing that is written, asked for or decided depends on a trace.
-/

namespace MiniPascal

/-- Whether an effect is a line of a trace. -/
def Effect.isTrace : Effect → Bool
  | device .. => false
  | trace _ => true

/-- The devices without the lines that were traced. -/
def Devices.untraced (devices : Devices) : Devices :=
  { devices with effects := devices.effects.filter (!·.isTrace) }

/-- The console without the lines that were traced. -/
def Console.untraced (console : Console) : Console :=
  { console with devices := console.devices.untraced }

/-- The machine without a trace. -/
def Machine.untraced (m : Machine) : Machine :=
  { m with console := m.console.untraced, tracing := false, labelWidth := 0 }

namespace Devices

variable (devices : Devices)

theorem write_untraced (number : Nat) (bytes : Bytes) :
    devices.untraced.write number bytes =
      ((devices.write number bytes).1, (devices.write number bytes).2.untraced) := by
  have all : devices.untraced.all = devices.all := rfl
  unfold write
  rw [all]
  cases devices.all[number]? with
  | none => rfl
  | some device =>
    dsimp only
    cases device.manner.write device.writes device.accepted bytes.length <;> rfl

theorem flush_untraced (number : Nat) :
    devices.untraced.flush number = ((devices.flush number).1, (devices.flush number).2.untraced) := by
  have all : devices.untraced.all = devices.all := rfl
  unfold flush
  rw [all]
  cases devices.all[number]? <;> rfl

theorem events_untraced (number : Nat) : devices.untraced.events number = devices.events number := by
  unfold events untraced
  dsimp only
  rw [← List.filter_reverse, List.filterMap_filter]
  congr
  funext effect
  cases effect <;> rfl

end Devices

namespace Buffer

theorem flush_untraced (buffer : Buffer) (devices : Devices) :
    buffer.flush devices.untraced = ((buffer.flush devices).1, (buffer.flush devices).2.1,
      (buffer.flush devices).2.2.untraced) := by
  cases clear : buffer.stuck with
  | some failure => simp [flush, clear]
  | none =>
    by_cases empty : buffer.pending = []
    · rw [flush_of_empty clear empty, flush_of_empty clear empty]
    · rw [flush_of_pending clear empty, flush_of_pending clear empty, Devices.write_untraced]

theorem writeMore_untraced (fuel : Nat) : ∀ (buffer : Buffer) (devices : Devices) (accepted : Nat)
    (bytes : Bytes), buffer.writeMore devices.untraced fuel accepted bytes =
      ((buffer.writeMore devices fuel accepted bytes).1,
        (buffer.writeMore devices fuel accepted bytes).2.1,
        (buffer.writeMore devices fuel accepted bytes).2.2.untraced) := by
  induction fuel with
  | zero =>
    intro buffer devices accepted bytes
    rfl
  | succ fuel ih =>
    intro buffer devices accepted bytes
    cases clear : buffer.stuck with
    | some failure => simp [writeMore, clear]
    | none =>
      by_cases fits : bytes.length ≤ capacity - buffer.pending.length
      · rw [writeMore_of_fits clear fits, writeMore_of_fits clear fits]
      have long := Nat.not_le.mp fits
      by_cases empty : buffer.pending = []
      · rw [empty, List.length_nil, Nat.sub_zero] at long
        rw [writeMore_of_empty clear empty long, writeMore_of_empty clear empty long,
          Devices.write_untraced]
        exact ih _ _ _ _
      · rw [writeMore_of_full clear empty long, writeMore_of_full clear empty long, flush_untraced]
        exact ih _ _ _ _

end Buffer

namespace Outlet

theorem write_untraced (outlet : Outlet) (devices : Devices) (bytes : Bytes) :
    outlet.write devices.untraced bytes = ((outlet.write devices bytes).1,
      (outlet.write devices bytes).2.1, (outlet.write devices bytes).2.2.untraced) := by
  cases outlet with
  | direct device | flushing device => simp only [write, Devices.write_untraced]
  | buffered buffer => simp only [write, Buffer.write, Buffer.writeMore_untraced]

theorem flush_untraced (outlet : Outlet) (devices : Devices) :
    outlet.flush devices.untraced = ((outlet.flush devices).1, (outlet.flush devices).2.1,
      (outlet.flush devices).2.2.untraced) := by
  cases outlet with
  | direct device => rfl
  | flushing device => simp only [flush, Devices.flush_untraced]
  | buffered buffer => simp only [flush, Buffer.flush_untraced]

end Outlet

namespace Console

theorem writeAll_untraced (bytes : Bytes) (outlets : List Outlet) : ∀ devices : Devices,
    writeAll bytes devices.untraced outlets = ((writeAll bytes devices outlets).1,
      (writeAll bytes devices outlets).2.1, (writeAll bytes devices outlets).2.2.untraced) := by
  induction outlets with
  | nil =>
    intro devices
    rfl
  | cons outlet rest ih =>
    intro devices
    simp only [writeAll, Outlet.write_untraced, ih]
    split
    · rfl
    · split <;> rfl

theorem flushAll_untraced (outlets : List Outlet) : ∀ devices : Devices,
    flushAll devices.untraced outlets = ((flushAll devices outlets).1, (flushAll devices outlets).2.1,
      (flushAll devices outlets).2.2.untraced) := by
  induction outlets with
  | nil =>
    intro devices
    rfl
  | cons outlet rest ih =>
    intro devices
    rw [flushAll_cons, flushAll_cons, Outlet.flush_untraced, ih]

theorem write_untraced (console : Console) (bytes : Bytes) :
    console.untraced.write bytes =
      ((console.write bytes).1, (console.write bytes).2.untraced) := by
  obtain ⟨_ | ⟨outlet, _ | ⟨second, rest⟩⟩, devices⟩ := console
  · rfl
  · simp only [untraced, write, Outlet.write_untraced]
  · simp only [untraced, write, writeAll_untraced]

theorem flush_untraced (console : Console) :
    console.untraced.flush = (console.flush.1, console.flush.2.untraced) := by
  simp only [untraced, flush, flushAll_untraced]

end Console

namespace LineReader

/-- A reader on the console without the lines that were traced. -/
def untraced (reader : LineReader) : LineReader := { reader with console := reader.console.untraced }

theorem display_untraced (reader : LineReader) (text : Text) :
    reader.untraced.display text = ((reader.display text).1, (reader.display text).2.untraced) := by
  unfold display untraced
  simp only [Console.write_untraced]
  split
  · rfl
  · simp only [Console.flush_untraced]

theorem display_of_untraced {reader shown : LineReader} {failure : Option Failure} {text : Text}
    (shows : reader.display text = (failure, shown)) :
    reader.untraced.display text = (failure, shown.untraced) := by
  rw [display_untraced, shows]

theorem Asked.untraced {prompt : Text} {fuel : Nat} {reader : LineReader}
    {result : Except Failure Int64 × LineReader} (asked : Asked prompt fuel reader result) :
    Asked prompt fuel reader.untraced (result.1, result.2.untraced) := by
  induction asked with
  | spent => exact .spent _
  | unshown shows => exact .unshown (display_of_untraced shows)
  | unread shows reads => exact .unread (display_of_untraced shows) reads
  | answered shows reads holds => exact .answered (display_of_untraced shows) reads holds
  | unretried shows reads holds retries =>
    exact .unretried (display_of_untraced shows) reads holds (display_of_untraced retries)
  | retried shows reads holds retries _ ih =>
    exact .retried (display_of_untraced shows) reads holds (display_of_untraced retries) ih

end LineReader

/-! ## Machines -/

namespace Machine

variable {m last after : Machine} {halt : Halt}

theorem traced_untraced (m : Machine) (label message : Text) :
    m.untraced.traced label message = (m.traced label message).untraced := by
  unfold traced
  change m.untraced = _
  split <;> rfl

theorem asked_untraced (m : Machine) (prompt : Text) :
    m.untraced.asked prompt = ((m.asked prompt).1, (m.asked prompt).2.untraced) := by
  cases scripted : m.script.bind fun i => m.scripts[i]? with
  | some script =>
    obtain ⟨i, used, found⟩ := Option.bind_eq_some_iff.mp scripted
    rw [asked_of_script used found]
    exact asked_of_script (m := m.untraced) used found prompt
  | none =>
    rw [asked_of_typed scripted, asked_of_typed (m := m.untraced) scripted]
    have asked := LineReader.readWithin_asked prompt (m.input.unread + 1) ⟨m.console, m.input⟩
    have same : LineReader.readInteger ⟨m.untraced.console, m.untraced.input⟩ prompt = _ :=
      asked.untraced.eq
    rw [same]
    rfl

/-- Taking a trace away changes nothing else. -/
theorem view_untraced : View untraced untraced where
  fetched _ := rfl
  ready m := m.fetched.traced_untraced _ _
  traced := traced_untraced
  jump _ _ := rfl
  written m bytes := by
    change (m.console.untraced.write bytes).1 = _
    rw [Console.write_untraced]
  write m bytes := by
    change { m.untraced with console := (m.console.untraced.write bytes).2 } = _
    rw [Console.write_untraced]
    rfl
  clear m := by
    change m.console.untraced.flush.1 = _
    rw [Console.flush_untraced]
  flushed m := by
    change { m.untraced with console := m.console.untraced.flush.2 } = _
    rw [Console.flush_untraced]
    rfl
  asked := asked_untraced
  fault _ _ := rfl
  memory _ _ _ := rfl

theorem Steps.untraced (steps : m.Steps after) : m.untraced.Steps after.untraced := by
  obtain ⟨_, rfl, goes⟩ := view_untraced.steps (.of_program rfl rfl) steps steps.within
  exact goes

theorem Halts.untraced (halts : m.Halts halt after) : m.untraced.Halts halt after.untraced :=
  view_untraced.halts (.of_program rfl rfl) halts Iff.rfl

/-- A step that a machine goes without a trace, it goes with one. -/
theorem steps_of_untraced (goes : m.untraced.Steps after) : ∃ next, m.Steps next ∧ next.untraced = after := by
  cases ran : Exec.step m with
  | ok _ next =>
    have steps := Leads.ok (step_leads m) ran
    have same := steps.untraced.eq.symm.trans goes.eq
    exact ⟨next, steps, by injection same⟩
  | error halt next =>
    have halts := Leads.error (step_leads m) ran
    have same := halts.untraced.eq.symm.trans goes.eq
    cases same

/-- How a machine halts without a trace, it halts with one. -/
theorem halts_of_untraced (ends : m.untraced.Halts halt last) :
    ∃ next, m.Halts halt next ∧ next.untraced = last := by
  cases ran : Exec.step m with
  | ok _ next =>
    have steps := Leads.ok (step_leads m) ran
    have same := steps.untraced.eq.symm.trans ends.eq
    cases same
  | error halt' next =>
    have halts := Leads.error (step_leads m) ran
    have same := halts.untraced.eq.symm.trans ends.eq
    injection same with halt last
    subst halt
    exact ⟨next, halts, last⟩

end Machine

end MiniPascal
