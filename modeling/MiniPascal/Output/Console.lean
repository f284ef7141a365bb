import MiniPascal.Output.Device

/-! # Where output goes

A console passes what is written to it on to its outlets. An outlet writes to its device directly or
through a buffer of its own; two outlets may lead to one device, and each has its own buffer then.
With several outlets every write goes to them in order until one of them fails or accepts less than
all of it, and every flush goes to all of them.
-/

namespace MiniPascal

/-- Bytes on their way to a device. After its first failure a buffer accepts nothing more and repeats
that failure. -/
structure Buffer where
  device : Nat
  pending : Bytes := []
  stuck : Option Failure := none

namespace Buffer

def capacity : Nat := 4096

/-- Passes on what is pending. -/
def flush (buffer : Buffer) (devices : Devices) : Option Failure × Buffer × Devices :=
  match buffer.stuck with
  | some failure => (some failure, buffer, devices)
  | none =>
    if buffer.pending = [] then (none, buffer, devices)
    else
      let (written, devices) := devices.write buffer.device buffer.pending
      let failure := if written.failure.isNone ∧ written.count < buffer.pending.length
        then some .shortWrite else written.failure
      (failure, { buffer with pending := buffer.pending.drop written.count, stuck := failure }, devices)

/-- Takes in bytes. While they are more than fit, an empty buffer passes them on directly, and any other
is filled up and flushed. A device that takes none and reports no failure would be asked for ever; here it
is asked until the fuel is used up, and the write is short then. -/
def writeMore (buffer : Buffer) (devices : Devices) :
    (fuel : Nat) → (accepted : Nat) → Bytes → Written × Buffer × Devices
  | 0, accepted, _ => (⟨accepted, some .shortWrite⟩, buffer, devices)
  | fuel + 1, accepted, bytes =>
    match buffer.stuck with
    | some failure => (⟨accepted, some failure⟩, buffer, devices)
    | none =>
      let room := capacity - buffer.pending.length
      if bytes.length ≤ room then
        (⟨accepted + bytes.length, none⟩,
          { buffer with pending := buffer.pending ++ bytes }, devices)
      else if buffer.pending = [] then
        let (written, devices) := devices.write buffer.device bytes
        writeMore { buffer with stuck := written.failure } devices fuel (accepted + written.count)
          (bytes.drop written.count)
      else
        let (_, buffer, devices) :=
          flush { buffer with pending := buffer.pending ++ bytes.take room } devices
        writeMore buffer devices fuel (accepted + room) (bytes.drop room)

def write (buffer : Buffer) (devices : Devices) (bytes : Bytes) : Written × Buffer × Devices :=
  buffer.writeMore devices (2 * bytes.length + 3) 0 bytes

end Buffer

/-- One way out. -/
inductive Outlet where
  /-- Written to directly, with nothing to flush. -/
  | direct (device : Nat)
  /-- Written to directly; a flush is passed on. -/
  | flushing (device : Nat)
  | buffered (buffer : Buffer)

namespace Outlet

def write (outlet : Outlet) (devices : Devices) (bytes : Bytes) : Written × Outlet × Devices :=
  match outlet with
  | direct device | flushing device =>
    let (written, devices) := devices.write device bytes
    (written, outlet, devices)
  | buffered buffer =>
    let (written, buffer, devices) := buffer.write devices bytes
    (written, buffered buffer, devices)

def flush (outlet : Outlet) (devices : Devices) : Option Failure × Outlet × Devices :=
  match outlet with
  | direct _ => (none, outlet, devices)
  | flushing device =>
    let (failure, devices) := devices.flush device
    (failure, outlet, devices)
  | buffered buffer =>
    let (failure, buffer, devices) := buffer.flush devices
    (failure, buffered buffer, devices)

end Outlet

/-- Where a user sends output: nowhere, or to a device. -/
inductive Target where
  | nowhere
  | device (number : Nat)

/-- The outlets that a target calls for. -/
def Target.outlets (devices : Devices) : Target → List Outlet
  | nowhere => []
  | device number =>
    match devices.all[number]? with
    | none => []
    | some found =>
      match found.style with
      | .memory => [.direct number]
      | .flusher => [.flushing number]
      | .plain => [.buffered ⟨number, [], none⟩]

/-- Outlets and the devices they lead to. -/
structure Console where
  outlets : List Outlet := []
  devices : Devices

namespace Console

/-- Writes to several outlets in turn. -/
def writeAll (bytes : Bytes) (devices : Devices) : List Outlet → Written × List Outlet × Devices
  | [] => (⟨bytes.length, none⟩, [], devices)
  | outlet :: rest =>
    let (written, outlet, devices) := outlet.write devices bytes
    if written.failure.isSome then (written, outlet :: rest, devices)
    else if written.count < bytes.length then
      (⟨written.count, some .shortWrite⟩, outlet :: rest, devices)
    else
      let (written, rest, devices) := writeAll bytes devices rest
      (written, outlet :: rest, devices)

/-- Flushes all outlets; the first failure counts. -/
def flushAll (devices : Devices) : List Outlet → Option Failure × List Outlet × Devices
  | [] => (none, [], devices)
  | outlet :: rest =>
    let (failure, outlet, devices) := outlet.flush devices
    let (later, rest, devices) := flushAll devices rest
    (failure.or later, outlet :: rest, devices)

/-- Writes to the console. A single outlet answers for itself. -/
def write (console : Console) (bytes : Bytes) : Written × Console :=
  match console.outlets with
  | [outlet] =>
    let (written, outlet, devices) := outlet.write console.devices bytes
    (written, ⟨[outlet], devices⟩)
  | outlets =>
    let (written, outlets, devices) := writeAll bytes console.devices outlets
    (written, ⟨outlets, devices⟩)

def flush (console : Console) : Option Failure × Console :=
  let (failure, outlets, devices) := flushAll console.devices console.outlets
  (failure, ⟨outlets, devices⟩)

/-- Sends all further output to another target. -/
def redirect (console : Console) (target : Target) : Console :=
  let (_, console) := console.flush
  { console with outlets := target.outlets console.devices }

/-- Sends all further output to one more target. -/
def tee (console : Console) (target : Target) : Console :=
  { console with outlets := console.outlets ++ target.outlets console.devices }

def trace (console : Console) (line : Text) : Console :=
  { console with devices := console.devices.trace line }

end Console

end MiniPascal
