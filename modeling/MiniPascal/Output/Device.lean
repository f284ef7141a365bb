import MiniPascal.Failure

/-! # Devices that accept bytes

A device may accept all, part or none of the bytes it is offered, with or without saying why. What
all devices together have accepted, refused and flushed is kept in one record, in the order in which
it happened, together with the lines of a trace.
-/

namespace MiniPascal

inductive Response where
  /-- Nothing is accepted. -/
  | refused (failure : Failure)
  /-- At most `count` bytes are accepted. -/
  | took (count : Nat) (failure : Option Failure)

/-- How a device behaves: its answer to the write with a given number, after `accepted` bytes in
total, when `offered` bytes are offered; and its answer to the flush with a given number. -/
structure Manner where
  write : (number accepted offered : Nat) → Response
  flush : (number : Nat) → Option Failure

/-- A device that accepts everything. -/
def Manner.willing : Manner := ⟨fun _ _ offered => .took offered none, fun _ => none⟩

/-- A device that refuses the writes with the given numbers, and accepts no more than `limit` bytes in
total; a write beyond the limit fails, or is only short if `short` is set. -/
def Manner.limited (limit : Option Nat) (short : Bool) (refusing : List Nat) (failure : Failure)
    (flushFailure : Option Failure) : Manner where
  write number accepted offered :=
    if number ∈ refusing then .refused failure
    else match limit with
      | none => .took offered none
      | some limit =>
        if accepted + offered ≤ limit then .took offered none
        else .took (limit - accepted) (if short then none else some failure)
  flush _ := flushFailure

/-- How a device is used for output. -/
inductive DeviceStyle where
  /-- Memory, written to directly. -/
  | memory
  /-- A device that is written to through a buffer. -/
  | plain
  /-- A device with a buffer of its own, which is asked to flush it. -/
  | flusher
deriving DecidableEq

/-- A device and what it has been asked so far. -/
structure Device where
  style : DeviceStyle
  manner : Manner
  writes : Nat := 0
  flushes : Nat := 0
  accepted : Nat := 0

inductive DeviceEvent where
  | wrote (bytes : Bytes)
  | refused
  | flushed

/-- Something that left the machine. -/
inductive Effect where
  | device (number : Nat) (event : DeviceEvent)
  | trace (line : Text)

/-- All devices, and what has left for them, the newest first. -/
structure Devices where
  all : Array Device
  effects : List Effect := []

/-- What came of a write: how many bytes were accepted, and why not more. -/
structure Written where
  count : Nat
  failure : Option Failure

namespace Devices

def write (devices : Devices) (number : Nat) (bytes : Bytes) : Written × Devices :=
  match devices.all[number]? with
  | none => (⟨bytes.length, none⟩, devices)
  | some device =>
    match device.manner.write device.writes device.accepted bytes.length with
    | .refused failure =>
      (⟨0, some failure⟩,
        { all := devices.all.set! number { device with writes := device.writes + 1 }
          effects := .device number .refused :: devices.effects })
    | .took count failure =>
      let taken := bytes.take count
      (⟨taken.length, failure⟩,
        { all := devices.all.set! number
            { device with
              writes := device.writes + 1
              accepted := device.accepted + taken.length }
          effects := .device number (.wrote taken) :: devices.effects })

/-- Asks a device to flush its own buffer. -/
def flush (devices : Devices) (number : Nat) : Option Failure × Devices :=
  match devices.all[number]? with
  | none => (none, devices)
  | some device =>
    (device.manner.flush device.flushes,
      { all := devices.all.set! number { device with flushes := device.flushes + 1 }
        effects := .device number .flushed :: devices.effects })

def trace (devices : Devices) (line : Text) : Devices :=
  { devices with effects := .trace line :: devices.effects }

/-- What happened at a device, in order. -/
def events (devices : Devices) (number : Nat) : List DeviceEvent :=
  devices.effects.reverse.filterMap fun
    | .device n event => if n = number then some event else none
    | .trace _ => none

def received (devices : Devices) (number : Nat) : Bytes :=
  (devices.events number).flatMap fun
    | .wrote bytes => bytes
    | _ => []

def traceLines (devices : Devices) : List Text :=
  devices.effects.reverse.filterMap fun
    | .trace line => some line
    | .device .. => none

@[simp] theorem events_trace (devices : Devices) (line : Text) (number : Nat) :
    (devices.trace line).events number = devices.events number := by
  simp [trace, events]

@[simp] theorem received_trace (devices : Devices) (line : Text) (number : Nat) :
    (devices.trace line).received number = devices.received number := by
  simp [received]

@[simp] theorem received_flush (devices : Devices) (flushed number : Nat) :
    (devices.flush flushed).2.received number = devices.received number := by
  unfold flush
  split
  · rfl
  · by_cases same : flushed = number <;> simp [received, events, same]

/-- A write to one device leaves the others as they are. -/
theorem received_write_of_ne (devices : Devices) {written number : Nat} (other : written ≠ number)
    (bytes : Bytes) :
    (devices.write written bytes).2.received number = devices.received number := by
  unfold write
  split
  · rfl
  · split <;> simp [received, events, other]

end Devices

end MiniPascal
