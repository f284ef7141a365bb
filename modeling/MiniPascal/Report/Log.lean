import MiniPascal.Output.Device
import MiniPascal.Compiler.Journal

/-! # Logs

A log is a sequence of lines, each of a level and a message. What a device does not accept of a line
stays in front of the next one. A line that could not be written is followed by a line that says so.
-/

namespace MiniPascal

def errorLevel : Text := Level.error.name

def traceLevel : Text := "TRACE"

/-- The beginning of a line of the given level. -/
def levelMark (level : Text) : Text := if level = [] then [] else .join [level, ": "]

/-- Bytes that end with a line end. -/
def withLineEnd (bytes : Bytes) : Bytes :=
  if bytes.getLast? = some '\n'.toUInt8 then bytes else bytes ++ ['\n'.toUInt8]

structure Logger where
  /-- The device, if there is one. -/
  device : Option Nat
  /-- What the device has not accepted yet. -/
  pending : Bytes := []
  /-- The levels of the lines logged so far, the newest first. -/
  levels : List Text := []
  exitCode : Nat := 0

namespace Logger

def count (logger : Logger) (level : Text) : Nat := logger.levels.count level

/-- Puts a line behind what is pending. -/
def append (logger : Logger) (level message : Text) : Logger :=
  { logger with
    levels := level :: logger.levels
    exitCode := if level = errorLevel ∧ logger.exitCode = 0 then 1 else logger.exitCode
    pending := withLineEnd (logger.pending ++ (levelMark level).bytes ++ message.bytes) }

/-- Offers what is pending to the device. -/
def deliver (logger : Logger) (devices : Devices) : Option Failure × Logger × Devices :=
  match logger.device with
  | none => (none, { logger with pending := [] }, devices)
  | some device =>
    let (written, devices) := devices.write device logger.pending
    let failure := if written.failure.isNone ∧ written.count < logger.pending.length
      then some .shortWrite else written.failure
    (failure, { logger with pending := logger.pending.drop written.count }, devices)

def print (logger : Logger) (devices : Devices) (level message : Text) : Logger × Devices :=
  match (logger.append level message).deliver devices with
  | (none, logger, devices) => (logger, devices)
  | (some failure, logger, devices) =>
    let (_, logger, devices) := (logger.append errorLevel failure.message).deliver devices
    ({ logger with exitCode := 2 }, devices)

def printFailure (logger : Logger) (devices : Devices) : Option Failure → Logger × Devices
  | none => (logger, devices)
  | some failure => logger.print devices errorLevel failure.message

end Logger

/-- How an event of a compilation appears in a log: as a line of its own, or under a level. -/
inductive LogEntry where
  | bare (line : Text)
  | leveled (level message : Text)

/-- The line that says whether a program was accepted. -/
def verdictLine (accepted : Bool) : Text := if accepted then "Success." else "Compilation failed."

def Event.logEntry : Event → LogEntry
  | .line number text => .bare (.join [.fourPlaces number, " ", .ofChars text])
  | .token found => .leveled [] found.logText
  | .enter depth rule =>
    .leveled traceLevel (.join [List.replicate depth (.char ' '), "--> Entering ", rule.name])
  | .leave depth rule =>
    .leveled traceLevel (.join [List.replicate depth (.char ' '), "<-- Exiting ", rule.name])
  | .report diagnostic => .leveled diagnostic.level.name diagnostic.message
  | .verdict accepted => .bare (verdictLine accepted)

/-- Writes an event to a log; lines of their own go straight to the device. -/
def Logger.printEvent (state : Logger × Devices) (event : Event) : Logger × Devices :=
  let (logger, devices) := state
  match event.logEntry with
  | .leveled level message => logger.print devices level message
  | .bare line =>
    match logger.device with
    | none => (logger, devices)
    | some device => (logger, (devices.write device line.line.bytes).2)

/-- Writes the journal of a compilation to a log. -/
def Logger.printJournal (logger : Logger) (devices : Devices) (journal : Journal) : Logger × Devices :=
  journal.toList.foldl Logger.printEvent (logger, devices)

end MiniPascal
