import MiniPascal.Output.Console
import Mathlib.Tactic.Common

/-! # Nothing is lost on the way out

What was sent to a device is what it has received, followed by what its outlet holds back. An operation
of a console that reports no failure sends exactly what it was given to every device that it leads to,
as long as no two outlets lead to the same device and no device keeps silent about what it refused; and a
flush leaves nothing held back.
-/

namespace MiniPascal

/-! ## Devices -/

namespace Manner

/-- A device that reports it when it does not accept all it is offered. -/
def Honest (manner : Manner) : Prop :=
  ∀ number accepted offered count,
    manner.write number accepted offered = .took count none → offered ≤ count

/-- A device that never fails. -/
structure Reliable (manner : Manner) : Prop where
  write : ∀ number accepted offered, manner.write number accepted offered = .took offered none
  flush : ∀ number, manner.flush number = none

theorem Reliable.honest {manner : Manner} (reliable : manner.Reliable) : manner.Honest := by
  intro number accepted offered count took
  rw [reliable.write] at took
  cases took
  exact Nat.le_refl _

theorem reliable_willing : willing.Reliable := ⟨fun _ _ _ => rfl, fun _ => rfl⟩

end Manner

namespace Devices

variable (devices : Devices) {number : Nat} {manner : Manner} {bytes : Bytes}

/-- How a device behaves. -/
def manner? (number : Nat) : Option Manner := (devices.all[number]?).map Device.manner

private theorem manner?_set {device changed : Device} (found : devices.all[number]? = some device)
    (same : changed.manner = device.manner) (effects : List Effect) (other : Nat) :
    manner? ⟨devices.all.set! number changed, effects⟩ other = devices.manner? other := by
  unfold manner?
  rw [Array.set!_eq_setIfInBounds, Array.getElem?_setIfInBounds]
  split
  · rename_i eq
    subst eq
    rw [found]
    split
    · exact congrArg some same
    · rename_i outside
      rw [Array.getElem?_eq_none (by omega)] at found
      cases found
  · rfl

@[simp] theorem manner?_write (number : Nat) (bytes : Bytes) (other : Nat) :
    (devices.write number bytes).2.manner? other = devices.manner? other := by
  unfold write
  split
  · rfl
  · rename_i found
    split
    · apply devices.manner?_set found
      rfl
    · apply devices.manner?_set found
      rfl

@[simp] theorem manner?_flush (number other : Nat) :
    (devices.flush number).2.manner? other = devices.manner? other := by
  unfold flush
  split
  · rfl
  · rename_i found
    apply devices.manner?_set found
    rfl

@[simp] theorem manner?_trace (line : Text) (other : Nat) :
    (devices.trace line).manner? other = devices.manner? other := rfl

variable {devices}

/-- An honest device that reports no failure has accepted everything. -/
theorem write_of_honest (found : devices.manner? number = some manner) (honest : manner.Honest)
    (clear : (devices.write number bytes).1.failure = none) :
    (devices.write number bytes).1.count = bytes.length ∧
      (devices.write number bytes).2.received number = devices.received number ++ bytes := by
  obtain ⟨device, here, rfl⟩ := Option.map_eq_some_iff.mp found
  cases answer : device.manner.write device.writes device.accepted bytes.length with
  | refused failure => simp [write, here, answer] at clear
  | took count failure =>
    obtain rfl : failure = none := by simpa [write, here, answer] using clear
    have all : bytes.take count = bytes := List.take_of_length_le (honest _ _ _ _ answer)
    simp [write, here, answer, all, received, events]

/-- A device has received the part of the bytes that it says it has accepted. -/
theorem received_write (found : devices.manner? number = some manner) (bytes : Bytes) :
    (devices.write number bytes).2.received number =
      devices.received number ++ bytes.take (devices.write number bytes).1.count := by
  obtain ⟨device, here, rfl⟩ := Option.map_eq_some_iff.mp found
  cases answer : device.manner.write device.writes device.accepted bytes.length with
  | refused failure => simp [write, here, answer, received, events]
  | took count failure => simp [write, here, answer, received, events]

theorem write_of_reliable (found : devices.manner? number = some manner)
    (reliable : manner.Reliable) (bytes : Bytes) : (devices.write number bytes).1.failure = none := by
  obtain ⟨device, here, rfl⟩ := Option.map_eq_some_iff.mp found
  simp [write, here, reliable.write]

theorem flush_of_reliable (found : devices.manner? number = some manner)
    (reliable : manner.Reliable) : (devices.flush number).1 = none := by
  obtain ⟨device, here, rfl⟩ := Option.map_eq_some_iff.mp found
  simp [flush, here, reliable.flush]

end Devices

/-! ## Outlets and consoles -/

namespace Outlet

/-- The device that an outlet leads to. -/
def number : Outlet → Nat
  | direct device | flushing device => device
  | buffered buffer => buffer.device

/-- Whether an outlet has a buffer. -/
def buffers : Outlet → Bool
  | direct _ | flushing _ => false
  | buffered _ => true

/-- What an outlet holds back. -/
def pending : Outlet → Bytes
  | direct _ | flushing _ => []
  | buffered buffer => buffer.pending

/-- The failure that an outlet repeats. -/
def stuck : Outlet → Option Failure
  | direct _ | flushing _ => none
  | buffered buffer => buffer.stuck

end Outlet

namespace Console

/-- The devices that a console leads to. -/
def numbers (console : Console) : List Nat := console.outlets.map Outlet.number

/-- What is held back from a device. -/
def pending (console : Console) (number : Nat) : Bytes :=
  console.outlets.flatMap fun outlet => if outlet.number = number then outlet.pending else []

/-- What was sent to a device. -/
def sent (console : Console) (number : Nat) : Bytes :=
  console.devices.received number ++ console.pending number

/-- Each outlet leads to a device of its own, and the devices are good ones. -/
structure Served (good : Manner → Prop) (console : Console) : Prop where
  distinct : console.numbers.Nodup
  devices : ∀ number ∈ console.numbers,
    ∃ manner, console.devices.manner? number = some manner ∧ good manner

/-- No outlet has failed. -/
def Fluent (console : Console) : Prop := ∀ outlet ∈ console.outlets, outlet.stuck = none

/-- Exactly `bytes` was sent to every device, and no outlet has failed. -/
structure Passes (bytes : Bytes) (console after : Console) : Prop where
  numbers : after.numbers = console.numbers
  buffers : after.outlets.map Outlet.buffers = console.outlets.map Outlet.buffers
  manner : ∀ number, after.devices.manner? number = console.devices.manner? number
  fluent : after.Fluent
  sent : ∀ number ∈ console.numbers, after.sent number = console.sent number ++ bytes
  others : ∀ number ∉ console.numbers,
    after.devices.received number = console.devices.received number

variable {console middle after : Console} {bytes more : Bytes} {good : Manner → Prop}

theorem Served.mono {better : Manner → Prop} (served : console.Served better)
    (weaker : ∀ manner, better manner → good manner) : console.Served good := by
  refine ⟨served.distinct, fun number member => ?_⟩
  obtain ⟨manner, found, better⟩ := served.devices number member
  exact ⟨manner, found, weaker manner better⟩

namespace Passes

theorem refl (fluent : console.Fluent) : Passes [] console console :=
  ⟨rfl, rfl, fun _ => rfl, fluent, fun _ _ => (List.append_nil _).symm, fun _ _ => rfl⟩

theorem trans (first : Passes bytes console middle) (second : Passes more middle after) :
    Passes (bytes ++ more) console after := by
  refine ⟨second.numbers.trans first.numbers, second.buffers.trans first.buffers,
    fun n => (second.manner n).trans (first.manner n), second.fluent, fun number member => ?_, fun number absent => ?_⟩
  · rw [second.sent number (first.numbers ▸ member), first.sent number member, List.append_assoc]
  · rw [second.others number (first.numbers ▸ absent), first.others number absent]

/-- Where there is no buffer, nothing is held back. -/
theorem pending_of_unbuffered (passes : Passes bytes console after)
    (unbuffered : ∀ outlet ∈ console.outlets, outlet.buffers = false) (number : Nat) :
    after.pending number = [] := by
  refine List.flatMap_eq_nil_iff.mpr fun outlet member => ?_
  have same : outlet.buffers ∈ console.outlets.map Outlet.buffers := by
    rw [← passes.buffers]
    exact List.mem_map_of_mem member
  obtain ⟨before, there, eq⟩ := List.mem_map.mp same
  rw [unbuffered before there] at eq
  cases outlet with
  | direct | flushing => exact ite_self _
  | buffered => cases eq

theorem served (passes : Passes bytes console after) (served : console.Served good) :
    after.Served good := by
  constructor
  · rw [passes.numbers]
    exact served.distinct
  · intro number member
    rw [passes.numbers] at member
    rw [passes.manner]
    exact served.devices number member

theorem trace (passes : Passes bytes console after) (line : Text) :
    Passes bytes console (after.trace line) := by
  have received (number : Nat) :
      (after.trace line).devices.received number = after.devices.received number :=
    Devices.received_trace _ _ _
  refine ⟨passes.numbers, passes.buffers, passes.manner, passes.fluent, fun number member => ?_,
    fun number absent => (received number).trans (passes.others number absent)⟩
  rw [← passes.sent number member, Console.sent, received]
  rfl

end Passes

theorem pending_eq_nil {number : Nat} (absent : number ∉ console.numbers) :
    console.pending number = [] := by
  unfold pending
  rw [List.flatMap_eq_nil_iff]
  intro outlet member
  have other : outlet.number ≠ number := by
    rintro rfl
    exact absent (List.mem_map_of_mem member)
  exact if_neg other

/-! ## One outlet -/

section Single

variable {outlet changed : Outlet} {devices later : Devices}

@[simp] theorem numbers_single (outlet : Outlet) (devices : Devices) :
    numbers ⟨[outlet], devices⟩ = [outlet.number] := rfl

theorem fluent_single (clear : outlet.stuck = none) : Fluent ⟨[outlet], devices⟩ := by
  intro found member
  rw [List.mem_singleton.mp member]
  exact clear

theorem sent_single (outlet : Outlet) (devices : Devices) :
    sent ⟨[outlet], devices⟩ outlet.number = devices.received outlet.number ++ outlet.pending := by
  simp [sent, pending]

/-- What passes through a single outlet. -/
theorem Passes.single (same : changed.number = outlet.number)
    (kept : changed.buffers = outlet.buffers) (clear : changed.stuck = none)
    (manner : ∀ number, later.manner? number = devices.manner? number)
    (here : later.received outlet.number ++ changed.pending =
      devices.received outlet.number ++ outlet.pending ++ bytes)
    (others : ∀ number, outlet.number ≠ number → later.received number = devices.received number) :
    Passes bytes ⟨[outlet], devices⟩ ⟨[changed], later⟩ := by
  refine ⟨congrArg (fun n => [n]) same, congrArg (fun b => [b]) kept, manner, fluent_single clear,
    fun number member => ?_, fun number absent => others number fun eq => absent (List.mem_singleton.mpr eq.symm)⟩
  obtain rfl := List.mem_singleton.mp member
  rw [sent_single, ← same, sent_single, same]
  exact here

theorem Served.single_manner (served : Served good ⟨[outlet], devices⟩) :
    ∃ manner, devices.manner? outlet.number = some manner ∧ good manner :=
  served.devices outlet.number (by simp)

end Single

end Console

namespace Buffer

open Console

variable {buffer : Buffer} {devices : Devices} {bytes : Bytes}

/-- The failure that a flush reports, after the answer of the device. -/
def shortfall (written : Written) (offered : Nat) : Option Failure :=
  if written.failure.isNone ∧ written.count < offered then some .shortWrite else written.failure

theorem flush_of_empty (clear : buffer.stuck = none) (empty : buffer.pending = []) :
    buffer.flush devices = (none, buffer, devices) := by
  simp [flush, clear, empty]

theorem flush_of_pending (clear : buffer.stuck = none) (some : buffer.pending ≠ []) :
    buffer.flush devices =
      (shortfall (devices.write buffer.device buffer.pending).1 buffer.pending.length,
        ⟨buffer.device, buffer.pending.drop (devices.write buffer.device buffer.pending).1.count,
          shortfall (devices.write buffer.device buffer.pending).1 buffer.pending.length⟩,
        (devices.write buffer.device buffer.pending).2) := by
  simp [flush, clear, some, shortfall]

theorem flush_passes (served : Served Manner.Honest ⟨[.buffered buffer], devices⟩)
    (silent : (buffer.flush devices).1 = none) :
    Passes [] ⟨[.buffered buffer], devices⟩
        ⟨[.buffered (buffer.flush devices).2.1], (buffer.flush devices).2.2⟩ ∧
      (buffer.flush devices).2.1.pending = [] := by
  obtain ⟨manner, found, honest⟩ := served.single_manner
  change devices.manner? buffer.device = some manner at found
  cases clear : buffer.stuck with
  | some failure => simp [flush, clear] at silent
  | none =>
    by_cases empty : buffer.pending = []
    · rw [flush_of_empty clear empty]
      exact ⟨.refl (fluent_single clear), empty⟩
    · rw [flush_of_pending clear empty] at *
      have accepts : (devices.write buffer.device buffer.pending).1.failure = none := by
        unfold shortfall at silent
        split at silent
        · cases silent
        · exact silent
      obtain ⟨count, received⟩ := Devices.write_of_honest found honest accepts
      rw [count, List.drop_length]
      refine ⟨.single rfl rfl silent (by simp) ?_ (fun n other => ?_), rfl⟩
      · simpa [Outlet.pending, Outlet.number] using received
      · exact Devices.received_write_of_ne _ other _

/-- A buffer that has failed accepts nothing. -/
theorem writeMore_stuck {failure : Failure} (stuck : buffer.stuck = some failure)
    (fuel accepted : Nat) : (buffer.writeMore devices fuel accepted bytes).1.failure ≠ none := by
  cases fuel with
  | zero => simp [writeMore]
  | succ => simp [writeMore, stuck]

theorem writeMore_of_fits (clear : buffer.stuck = none)
    (fits : bytes.length ≤ capacity - buffer.pending.length) (fuel accepted : Nat) :
    buffer.writeMore devices (fuel + 1) accepted bytes =
      (⟨accepted + bytes.length, none⟩, ⟨buffer.device, buffer.pending ++ bytes, none⟩, devices) := by
  simp [writeMore, clear, fits]

theorem writeMore_of_empty (clear : buffer.stuck = none) (empty : buffer.pending = [])
    (long : capacity < bytes.length) (fuel accepted : Nat) :
    buffer.writeMore devices (fuel + 1) accepted bytes =
      writeMore ⟨buffer.device, [], (devices.write buffer.device bytes).1.failure⟩
        (devices.write buffer.device bytes).2 fuel
        (accepted + (devices.write buffer.device bytes).1.count)
        (bytes.drop (devices.write buffer.device bytes).1.count) := by
  simp [writeMore, clear, empty, Nat.not_le.mpr long]

/-- A buffer with as much in it as fits. -/
def filled (buffer : Buffer) (bytes : Bytes) : Buffer :=
  { buffer with pending := buffer.pending ++ bytes.take (capacity - buffer.pending.length) }

theorem writeMore_of_full (clear : buffer.stuck = none) (some : buffer.pending ≠ [])
    (long : capacity - buffer.pending.length < bytes.length) (fuel accepted : Nat) :
    buffer.writeMore devices (fuel + 1) accepted bytes =
      writeMore ((buffer.filled bytes).flush devices).2.1 ((buffer.filled bytes).flush devices).2.2 fuel
        (accepted + (capacity - buffer.pending.length))
        (bytes.drop (capacity - buffer.pending.length)) := by
  simp [writeMore, clear, some, Nat.not_le.mpr long, filled]

theorem filled_passes (clear : buffer.stuck = none) (devices : Devices) (bytes : Bytes) :
    Passes (bytes.take (capacity - buffer.pending.length)) ⟨[.buffered buffer], devices⟩
      ⟨[.buffered (buffer.filled bytes)], devices⟩ :=
  .single rfl rfl clear (fun _ => rfl) (List.append_assoc ..).symm fun _ _ => rfl

theorem direct_passes (served : Served Manner.Honest ⟨[.buffered buffer], devices⟩)
    (empty : buffer.pending = []) (accepts : (devices.write buffer.device bytes).1.failure = none) :
    (devices.write buffer.device bytes).1.count = bytes.length ∧
      Passes bytes ⟨[.buffered buffer], devices⟩
        ⟨[.buffered ⟨buffer.device, [], none⟩], (devices.write buffer.device bytes).2⟩ := by
  obtain ⟨manner, found, honest⟩ := served.single_manner
  obtain ⟨count, received⟩ := Devices.write_of_honest found honest accepts
  refine ⟨count, .single rfl rfl rfl (by simp) ?_ fun n other => ?_⟩
  · simpa [Outlet.pending, Outlet.number, empty] using received
  · exact Devices.received_write_of_ne _ other _

theorem stuck_of_flush {failure : Failure} (fails : (buffer.flush devices).1 = some failure) :
    (buffer.flush devices).2.1.stuck = some failure := by
  cases clear : buffer.stuck with
  | some other => simpa [flush, clear] using fails
  | none =>
    by_cases empty : buffer.pending = []
    · rw [flush_of_empty clear empty] at fails
      cases fails
    · rw [flush_of_pending clear empty] at *
      exact fails

/-- What a buffer takes in without a failure, it passes on or keeps. -/
theorem writeMore_passes (fuel : Nat) : ∀ (buffer : Buffer) (devices : Devices) (accepted : Nat)
    (bytes : Bytes), Served Manner.Honest ⟨[.buffered buffer], devices⟩ →
    (buffer.writeMore devices fuel accepted bytes).1.failure = none →
    Passes bytes ⟨[.buffered buffer], devices⟩
      ⟨[.buffered (buffer.writeMore devices fuel accepted bytes).2.1],
        (buffer.writeMore devices fuel accepted bytes).2.2⟩ ∧
      (buffer.writeMore devices fuel accepted bytes).1.count = accepted + bytes.length := by
  induction fuel with
  | zero =>
    intro buffer devices accepted bytes _ silent
    cases silent
  | succ fuel ih =>
    intro buffer devices accepted bytes served silent
    cases clear : buffer.stuck with
    | some failure => exact absurd silent (writeMore_stuck clear _ _)
    | none =>
      by_cases fits : bytes.length ≤ capacity - buffer.pending.length
      · rw [writeMore_of_fits clear fits]
        exact ⟨.single rfl rfl rfl (fun _ => rfl) (List.append_assoc ..).symm fun _ _ => rfl, rfl⟩
      have long := Nat.not_le.mp fits
      by_cases empty : buffer.pending = []
      · rw [empty, List.length_nil, Nat.sub_zero] at long
        rw [writeMore_of_empty clear empty long] at *
        cases accepts : (devices.write buffer.device bytes).1.failure with
        | some failure =>
          rw [accepts] at silent
          exact absurd silent (writeMore_stuck rfl _ _)
        | none =>
          obtain ⟨count, direct⟩ := direct_passes served empty accepts
          rw [accepts] at silent
          rw [count, List.drop_length] at silent ⊢
          obtain ⟨rest, total⟩ := ih _ _ _ _ (direct.served served) silent
          have passes := direct.trans rest
          rw [List.append_nil] at passes
          exact ⟨passes, total⟩
      · rw [writeMore_of_full clear empty long] at *
        cases flushes : ((buffer.filled bytes).flush devices).1 with
        | some failure => exact absurd silent (writeMore_stuck (stuck_of_flush flushes) _ _)
        | none =>
          have filling := filled_passes clear devices bytes
          obtain ⟨flushing, _⟩ := flush_passes (filling.served served) flushes
          obtain ⟨rest, total⟩ := ih _ _ _ _ (flushing.served (filling.served served)) silent
          have passes := (filling.trans flushing).trans rest
          rw [List.append_nil, List.take_append_drop] at passes
          refine ⟨passes, ?_⟩
          rw [total, List.length_drop]
          omega

/-! A device that never fails -/

theorem flush_of_reliable (served : Served Manner.Reliable ⟨[.buffered buffer], devices⟩)
    (clear : buffer.stuck = none) : (buffer.flush devices).1 = none := by
  obtain ⟨manner, found, reliable⟩ := served.single_manner
  by_cases empty : buffer.pending = []
  · rw [flush_of_empty clear empty]
  · have accepts := Devices.write_of_reliable found reliable buffer.pending
    obtain ⟨count, _⟩ := Devices.write_of_honest found reliable.honest accepts
    change (devices.write buffer.device buffer.pending).1.failure = none at accepts
    change (devices.write buffer.device buffer.pending).1.count = _ at count
    rw [flush_of_pending clear empty]
    simp [shortfall, accepts, count]

theorem writeMore_of_reliable_empty (served : Served Manner.Reliable ⟨[.buffered buffer], devices⟩)
    (clear : buffer.stuck = none) (empty : buffer.pending = []) (fuel accepted : Nat)
    (bytes : Bytes) : (buffer.writeMore devices (fuel + 2) accepted bytes).1.failure = none := by
  obtain ⟨manner, found, reliable⟩ := served.single_manner
  by_cases fits : bytes.length ≤ capacity - buffer.pending.length
  · rw [writeMore_of_fits clear fits]
  · have long : capacity < bytes.length := by
      rw [empty, List.length_nil, Nat.sub_zero] at fits
      exact Nat.not_le.mp fits
    have accepts := Devices.write_of_reliable found reliable bytes
    obtain ⟨count, _⟩ := direct_passes (served.mono fun _ => Manner.Reliable.honest) empty accepts
    rw [writeMore_of_empty clear empty long, count, List.drop_length]
    rw [writeMore_of_fits accepts (Nat.zero_le _)]

/-- A buffer in front of a device that never fails takes in everything. -/
theorem write_of_reliable (served : Served Manner.Reliable ⟨[.buffered buffer], devices⟩)
    (clear : buffer.stuck = none) (bytes : Bytes) :
    (buffer.write devices bytes).1.failure = none := by
  unfold write
  by_cases fits : bytes.length ≤ capacity - buffer.pending.length
  · rw [writeMore_of_fits clear fits]
  by_cases empty : buffer.pending = []
  · exact writeMore_of_reliable_empty served clear empty _ _ _
  · rw [writeMore_of_full clear empty (Nat.not_le.mp fits)]
    have filling := filled_passes clear devices bytes
    have flushes := flush_of_reliable (filling.served served) clear
    obtain ⟨flushing, drained⟩ :=
      flush_passes ((filling.served served).mono fun _ => Manner.Reliable.honest) flushes
    exact writeMore_of_reliable_empty (flushing.served (filling.served served))
      (flushing.fluent _ (List.mem_singleton_self _)) drained _ _ _

end Buffer

namespace Outlet

open Console

variable {outlet : Outlet} {devices : Devices} {bytes : Bytes}

theorem write_passes (served : Served Manner.Honest ⟨[outlet], devices⟩)
    (silent : (outlet.write devices bytes).1.failure = none) :
    Passes bytes ⟨[outlet], devices⟩
        ⟨[(outlet.write devices bytes).2.1], (outlet.write devices bytes).2.2⟩ ∧
      (outlet.write devices bytes).1.count = bytes.length := by
  obtain ⟨manner, found, honest⟩ := served.single_manner
  cases outlet with
  | direct device | flushing device =>
    obtain ⟨count, received⟩ := Devices.write_of_honest found honest silent
    refine ⟨.single rfl rfl rfl (Devices.manner?_write _ _ _) ?_ fun n other => ?_, count⟩
    · exact (List.append_nil _).trans (received.trans (by rw [Outlet.pending, List.append_nil]))
    · exact Devices.received_write_of_ne _ other _
  | buffered buffer =>
    have written := Buffer.writeMore_passes (2 * bytes.length + 3) _ _ 0 bytes served silent
    rw [Nat.zero_add] at written
    exact written

theorem flush_passes (served : Served Manner.Honest ⟨[outlet], devices⟩)
    (silent : (outlet.flush devices).1 = none) :
    Passes [] ⟨[outlet], devices⟩ ⟨[(outlet.flush devices).2.1], (outlet.flush devices).2.2⟩ ∧
      (outlet.flush devices).2.1.pending = [] := by
  cases outlet with
  | direct device => exact ⟨.refl (fluent_single rfl), rfl⟩
  | flushing device =>
    refine ⟨.single rfl rfl rfl (Devices.manner?_flush _ _) ?_ fun n _ => ?_, rfl⟩
    · simp [flush, pending]
    · exact Devices.received_flush _ _ _
  | buffered buffer => exact Buffer.flush_passes served silent

theorem write_of_reliable (served : Served Manner.Reliable ⟨[outlet], devices⟩)
    (clear : outlet.stuck = none) (bytes : Bytes) :
    (outlet.write devices bytes).1.failure = none := by
  obtain ⟨manner, found, reliable⟩ := served.single_manner
  cases outlet with
  | direct device => exact Devices.write_of_reliable found reliable bytes
  | flushing device => exact Devices.write_of_reliable found reliable bytes
  | buffered buffer => exact Buffer.write_of_reliable served clear bytes

theorem flush_of_reliable (served : Served Manner.Reliable ⟨[outlet], devices⟩)
    (clear : outlet.stuck = none) : (outlet.flush devices).1 = none := by
  obtain ⟨manner, found, reliable⟩ := served.single_manner
  cases outlet with
  | direct device => rfl
  | flushing device => exact Devices.flush_of_reliable found reliable
  | buffered buffer => exact Buffer.flush_of_reliable served clear

end Outlet

/-! ## Several outlets -/

namespace Console

variable {bytes : Bytes} {outlet changed : Outlet} {rest others : List Outlet}
variable {devices middle later : Devices} {good : Manner → Prop}

theorem sent_cons (outlet : Outlet) (rest : List Outlet) (devices : Devices) (number : Nat) :
    sent ⟨outlet :: rest, devices⟩ number = devices.received number ++
      ((if outlet.number = number then outlet.pending else []) ++ pending ⟨rest, devices⟩ number) := rfl

theorem Served.head (served : Served good ⟨outlet :: rest, devices⟩) :
    Served good ⟨[outlet], devices⟩ :=
  ⟨by simp [numbers], fun number member => served.devices number
    (List.mem_cons.mpr (.inl (List.mem_singleton.mp member)))⟩

theorem Served.tail (served : Served good ⟨outlet :: rest, devices⟩) :
    Served good ⟨rest, devices⟩ ∧ outlet.number ∉ numbers ⟨rest, devices⟩ := by
  obtain ⟨absent, distinct⟩ := List.nodup_cons.mp served.distinct
  exact ⟨⟨distinct, fun number member => served.devices number (List.mem_cons_of_mem _ member)⟩, absent⟩

/-- What passes through the first outlet and then through the others. -/
theorem Passes.cons (first : Passes bytes ⟨[outlet], devices⟩ ⟨[changed], middle⟩)
    (second : Passes bytes ⟨rest, middle⟩ ⟨others, later⟩)
    (absent : outlet.number ∉ Console.numbers ⟨rest, devices⟩) :
    Passes bytes ⟨outlet :: rest, devices⟩ ⟨changed :: others, later⟩ := by
  have same : changed.number = outlet.number := List.singleton_inj.mp first.numbers
  have numbers : Console.numbers ⟨others, later⟩ = Console.numbers ⟨rest, devices⟩ := second.numbers
  have kept : changed.buffers = outlet.buffers := List.singleton_inj.mp first.buffers
  refine ⟨List.cons_eq_cons.mpr ⟨same, numbers⟩, List.cons_eq_cons.mpr ⟨kept, second.buffers⟩,
    fun n => (second.manner n).trans (first.manner n), fun found member => ?_, fun n member => ?_, fun n none => ?_⟩
  · obtain rfl | member := List.mem_cons.mp member
    · exact first.fluent _ (List.mem_singleton_self _)
    · exact second.fluent _ member
  · rw [sent_cons, sent_cons, same]
    obtain rfl | member := List.mem_cons.mp member
    · -- the others lead elsewhere, so they leave this device as the first outlet left it
      have here := first.sent outlet.number (List.mem_singleton_self _)
      rw [sent_single, ← same, sent_single, same] at here
      rw [pending_eq_nil (numbers ▸ absent), pending_eq_nil absent, second.others _ absent]
      simpa using here
    · have other : outlet.number ≠ n := fun eq => absent (eq ▸ member)
      have there : later.received n ++ Console.pending ⟨others, later⟩ n =
        middle.received n ++ Console.pending ⟨rest, devices⟩ n ++ bytes := second.sent n member
      have before : middle.received n = devices.received n :=
        first.others n fun here => other (List.mem_singleton.mp here).symm
      rw [if_neg other, if_neg other, List.nil_append, List.nil_append, there, before]
  · have other : n ∉ Console.numbers ⟨[outlet], devices⟩ :=
      fun here => none (List.mem_cons.mpr (.inl (List.mem_singleton.mp here)))
    have absent : n ∉ Console.numbers ⟨rest, middle⟩ := fun here => none (List.mem_cons_of_mem _ here)
    exact (second.others n absent).trans (first.others n other)

/-- The devices that the other outlets lead to are as good as before. -/
theorem Passes.served_rest (passes : Passes bytes ⟨[outlet], devices⟩ ⟨[changed], middle⟩)
    (served : Served good ⟨rest, devices⟩) : Served good ⟨rest, middle⟩ := by
  refine ⟨served.distinct, fun number member => ?_⟩
  rw [passes.manner]
  exact served.devices number member

theorem Passes.none (bytes : Bytes) (devices : Devices) : Passes bytes ⟨[], devices⟩ ⟨[], devices⟩ := by
  refine ⟨rfl, rfl, fun _ => rfl, ?_, ?_, fun _ _ => rfl⟩
  · intro found member
    cases member
  · intro number member
    cases member

theorem writeAll_of_failure {failure : Failure}
    (fails : (outlet.write devices bytes).1.failure = some failure) :
    (writeAll bytes devices (outlet :: rest)).1.failure = some failure := by
  simp [writeAll, fails]

theorem writeAll_of_passed (accepts : (outlet.write devices bytes).1.failure = none)
    (all : (outlet.write devices bytes).1.count = bytes.length) :
    writeAll bytes devices (outlet :: rest) =
      ((writeAll bytes (outlet.write devices bytes).2.2 rest).1,
        (outlet.write devices bytes).2.1 :: (writeAll bytes (outlet.write devices bytes).2.2 rest).2.1,
        (writeAll bytes (outlet.write devices bytes).2.2 rest).2.2) := by
  simp [writeAll, accepts, all]

theorem writeAll_passes (bytes : Bytes) (outlets : List Outlet) : ∀ devices : Devices,
    Served Manner.Honest ⟨outlets, devices⟩ → (writeAll bytes devices outlets).1.failure = none →
    Passes bytes ⟨outlets, devices⟩
      ⟨(writeAll bytes devices outlets).2.1, (writeAll bytes devices outlets).2.2⟩ := by
  induction outlets with
  | nil =>
    intro devices _ _
    exact .none bytes devices
  | cons outlet rest ih =>
    intro devices served silent
    obtain ⟨others, absent⟩ := served.tail
    cases accepts : (outlet.write devices bytes).1.failure with
    | some failure =>
      rw [writeAll_of_failure accepts] at silent
      cases silent
    | none =>
      obtain ⟨first, count⟩ := Outlet.write_passes served.head accepts
      rw [writeAll_of_passed accepts count] at silent ⊢
      exact first.cons (ih _ (first.served_rest others) silent) absent

/-- What a console accepts without a failure goes to all its devices. -/
theorem write_of_many (outlet second : Outlet) (rest : List Outlet) (devices : Devices) (bytes : Bytes) :
    Console.write ⟨outlet :: second :: rest, devices⟩ bytes =
      ((writeAll bytes devices (outlet :: second :: rest)).1,
        ⟨(writeAll bytes devices (outlet :: second :: rest)).2.1,
          (writeAll bytes devices (outlet :: second :: rest)).2.2⟩) := by
  rw [Console.write]

theorem write_passes {console : Console} (served : console.Served Manner.Honest)
    (silent : (console.write bytes).1.failure = none) :
    Passes bytes console (console.write bytes).2 := by
  obtain ⟨_ | ⟨outlet, _ | ⟨second, rest⟩⟩, devices⟩ := console
  · exact writeAll_passes bytes [] devices served silent
  · exact (Outlet.write_passes served silent).1
  · rw [write_of_many] at silent ⊢
    exact writeAll_passes bytes (outlet :: second :: rest) devices served silent

theorem flushAll_cons (outlet : Outlet) (rest : List Outlet) (devices : Devices) :
    flushAll devices (outlet :: rest) =
      ((outlet.flush devices).1.or (flushAll (outlet.flush devices).2.2 rest).1,
        (outlet.flush devices).2.1 :: (flushAll (outlet.flush devices).2.2 rest).2.1,
        (flushAll (outlet.flush devices).2.2 rest).2.2) := rfl

theorem flushAll_passes (outlets : List Outlet) : ∀ devices : Devices,
    Served Manner.Honest ⟨outlets, devices⟩ → (flushAll devices outlets).1 = none →
    Passes [] ⟨outlets, devices⟩ ⟨(flushAll devices outlets).2.1, (flushAll devices outlets).2.2⟩ ∧
      ∀ outlet ∈ (flushAll devices outlets).2.1, outlet.pending = [] := by
  induction outlets with
  | nil =>
    intro devices _ _
    refine ⟨.none [] devices, fun outlet member => ?_⟩
    cases member
  | cons outlet rest ih =>
    intro devices served silent
    obtain ⟨others, absent⟩ := served.tail
    rw [flushAll_cons] at silent ⊢
    obtain ⟨accepts, later⟩ := Option.or_eq_none_iff.mp silent
    obtain ⟨first, drained⟩ := Outlet.flush_passes served.head accepts
    obtain ⟨passes, empty⟩ := ih _ (first.served_rest others) later
    refine ⟨first.cons passes absent, fun found member => ?_⟩
    obtain rfl | member := List.mem_cons.mp member
    · exact drained
    · exact empty _ member

/-- Nothing is held back from any device. -/
def Drained (console : Console) : Prop := ∀ outlet ∈ console.outlets, outlet.pending = []

theorem Drained.pending {console : Console} (drained : console.Drained) (number : Nat) :
    console.pending number = [] := by
  apply List.flatMap_eq_nil_iff.mpr
  intro outlet member
  rw [drained outlet member, ite_self]

/-- A flush without a failure leaves nothing held back. -/
theorem flush_passes {console : Console} (served : console.Served Manner.Honest)
    (silent : console.flush.1 = none) :
    Passes [] console console.flush.2 ∧ console.flush.2.Drained :=
  flushAll_passes console.outlets console.devices served silent

/-- Each outlet leads to an honest device of its own, and none has failed. -/
structure Frank (console : Console) : Prop where
  served : console.Served Manner.Honest
  fluent : console.Fluent

theorem Passes.frank {console after : Console} (passes : Passes bytes console after)
    (frank : console.Frank) : after.Frank :=
  ⟨passes.served frank.served, passes.fluent⟩

/-- An operation fails after some others that have not. -/
inductive Trips (console : Console) (failure : Failure) : Prop
  | write {bytes more : Bytes} {after : Console} (passes : Passes bytes console after)
      (fails : (after.write more).1.failure = some failure)
  | flush {bytes : Bytes} {after : Console} (passes : Passes bytes console after)
      (fails : after.flush.1 = some failure)

theorem Trips.of_passes {console middle : Console} {failure : Failure} (trips : middle.Trips failure)
    (passes : Passes bytes console middle) : console.Trips failure := by
  cases trips with
  | write first fails => exact .write (passes.trans first) fails
  | flush first fails => exact .flush (passes.trans first) fails

/-! ## Devices that never fail -/

theorem writeAll_of_reliable (bytes : Bytes) (outlets : List Outlet) : ∀ devices : Devices,
    Served Manner.Reliable ⟨outlets, devices⟩ → Fluent ⟨outlets, devices⟩ →
    (writeAll bytes devices outlets).1.failure = none := by
  induction outlets with
  | nil =>
    intro devices _ _
    rfl
  | cons outlet rest ih =>
    intro devices served fluent
    have accepts := Outlet.write_of_reliable served.head (fluent outlet List.mem_cons_self) bytes
    obtain ⟨first, count⟩ :=
      Outlet.write_passes (served.head.mono fun _ => Manner.Reliable.honest) accepts
    rw [writeAll_of_passed accepts count]
    exact ih _ (first.served_rest served.tail.1) fun found member =>
      fluent found (List.mem_cons_of_mem _ member)

theorem flushAll_of_reliable (outlets : List Outlet) : ∀ devices : Devices,
    Served Manner.Reliable ⟨outlets, devices⟩ → Fluent ⟨outlets, devices⟩ →
    (flushAll devices outlets).1 = none := by
  induction outlets with
  | nil =>
    intro devices _ _
    rfl
  | cons outlet rest ih =>
    intro devices served fluent
    have accepts := Outlet.flush_of_reliable served.head (fluent outlet List.mem_cons_self)
    obtain ⟨first, _⟩ :=
      Outlet.flush_passes (served.head.mono fun _ => Manner.Reliable.honest) accepts
    rw [flushAll_cons, accepts, Option.none_or]
    exact ih _ (first.served_rest served.tail.1) fun found member =>
      fluent found (List.mem_cons_of_mem _ member)

/-- Each outlet leads to a device of its own that never fails, and none has failed. -/
structure Steady (console : Console) : Prop where
  served : console.Served Manner.Reliable
  fluent : console.Fluent

variable {console after : Console}

theorem Passes.steady (passes : Passes bytes console after) (steady : console.Steady) :
    after.Steady :=
  ⟨passes.served steady.served, passes.fluent⟩

theorem Steady.frank (steady : console.Steady) : console.Frank :=
  ⟨steady.served.mono fun _ => Manner.Reliable.honest, steady.fluent⟩

theorem Steady.write (steady : console.Steady) (bytes : Bytes) :
    (console.write bytes).1.failure = none := by
  obtain ⟨_ | ⟨outlet, _ | ⟨second, rest⟩⟩, devices⟩ := console
  · rfl
  · exact Outlet.write_of_reliable steady.served (steady.fluent _ (List.mem_singleton_self _)) bytes
  · rw [write_of_many]
    exact writeAll_of_reliable bytes (outlet :: second :: rest) devices steady.served steady.fluent

/-- A single device that never fails, behind a buffer with nothing in it. -/
theorem steady_single {buffer : Buffer} {manner : Manner} (reliable : manner.Reliable)
    (clear : buffer.stuck = none) (found : devices.manner? buffer.device = some manner) :
    Steady ⟨[.buffered buffer], devices⟩ := by
  refine ⟨⟨by simp, fun number member => ⟨manner, ?_, reliable⟩⟩, fluent_single clear⟩
  obtain rfl := List.mem_singleton.mp member
  exact found

theorem Steady.flush (steady : console.Steady) : console.flush.1 = none :=
  flushAll_of_reliable console.outlets console.devices steady.served steady.fluent

theorem Steady.not_trips (steady : console.Steady) {failure : Failure} : ¬ console.Trips failure := by
  rintro (⟨passes, fails⟩ | ⟨passes, fails⟩)
  · rw [(passes.steady steady).write] at fails
    cases fails
  · rw [(passes.steady steady).flush] at fails
    cases fails

end Console

end MiniPascal
