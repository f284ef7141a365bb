import MiniPascal.Compiler.Program
import MiniPascal.FileTree
import MiniPascal.Report.Log

/-! # Checking many files

Each file is compiled on its own. What the compiler says about a file is shown under its name, in the
order in which the files were given.
-/

namespace MiniPascal

structure CheckResult where
  name : Text
  accepted : Bool
  /-- What was said about the file. -/
  report : Bytes
  /-- What was watched besides, in order. -/
  watched : List Event

namespace CheckResult

/-- Whether an event belongs to the report. -/
def isReported : Event → Bool
  | .report _ | .verdict _ => true
  | _ => false

/-- The text that events have in a log of their own. -/
def logText (events : List Event) : Bytes :=
  let devices : Devices := { all := #[⟨.memory, .willing, 0, 0, 0⟩] }
  (events.foldl Logger.printEvent ({ device := some 0 }, devices)).2.received 0

def ofJournal (name : Text) (accepted : Bool) (journal : Journal) (extra : Bytes) : CheckResult :=
  { name
    accepted
    report := logText (journal.toList.filter isReported) ++ extra
    watched := journal.toList.filter fun event => !isReported event }

def failureLine (failure : Failure) : Bytes :=
  (Text.line (levelMark errorLevel ++ failure.message)).bytes

/-- Checks a program text. If `breakdown` is given, the compilation breaks off with it at the first
token. -/
def ofInput (options : CompileOptions) (breakdown : Option Failure) (name : Text) (input : Input) :
    CheckResult :=
  let silent := { options with watch := { options.watch with tokens := false } }
  let compiled (_ : Unit) :=
    let compilation := compile options input
    ofJournal name (compilation.verdict matches .accepted) compilation.journal []
  match breakdown with
  | none => compiled ()
  | some failure =>
    let started := (Session.start silent input).advance
    if started.look.kind = .endOfInput then compiled ()
    else ofJournal name false started.journal (failureLine (.brokeOff name failure))

def ofFile (tree : FileTree) (options : CompileOptions) (breakdown : Option Failure) (name : Text) :
    CheckResult :=
  match tree.openStream name with
  | .error failure => ⟨name, false, failureLine failure, []⟩
  | .ok stream =>
    let watch := { options.watch with echo := false, diagnostics := true, verdict := true }
    ofInput { options with watch } breakdown name (.ofFile stream)

/-- Writes results to a device one after the other, until a write fails or is short. Says how many of
those begun were not accepted. -/
def writeAll (device : Nat) (failed : Nat) (devices : Devices) :
    List CheckResult → Nat × Option Failure × Devices
  | [] => (failed, none, devices)
  | result :: rest =>
    let failed := if result.accepted then failed else failed + 1
    let (written, devices) := devices.write device (Text.join ["== ", result.name]).line.bytes
    match written.failure with
    | some failure => (failed, some failure, devices)
    | none =>
      if result.report = [] then writeAll device failed devices rest
      else
        let (written, devices) := devices.write device result.report
        match written.failure with
        | some failure => (failed, some failure, devices)
        | none =>
          if written.count < result.report.length then (failed, some .shortWrite, devices)
          else writeAll device failed devices rest

end CheckResult

end MiniPascal
