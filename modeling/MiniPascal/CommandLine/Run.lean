import MiniPascal.CommandLine.Flags
import MiniPascal.Machine.Execute
import MiniPascal.Report.Check
import MiniPascal.Report.Dump

/-! # The command line

The program compiles one file and runs it, runs a program that is built in, or checks many files.
Everything is written to standard output as it happens, except that what a running program prints is
buffered.
-/

namespace MiniPascal

structure CallResult where
  exitCode : Nat
  output : Bytes
  errors : Bytes := []
  tree : FileTree

namespace CommandLine

/-- The number of standard output among the devices. -/
def stdout : Nat := 0

/-- Standard output accepts everything. -/
def devices : Devices := { all := #[⟨.plain, .willing, 0, 0, 0⟩] }

/-- What stands on standard output, where trace lines are logged too. -/
def transcript (devices : Devices) : Bytes :=
  devices.effects.reverse.flatMap fun
    | .device _ (.wrote bytes) => bytes
    | .device _ _ => []
    | .trace line => (levelMark traceLevel ++ line.line).bytes

def finish (tree : FileTree) (state : Logger × Devices) : CallResult :=
  { exitCode := state.1.exitCode, output := transcript state.2, tree }

/-- The start of a call: a log on standard output. -/
def start : Logger × Devices := ({ device := some stdout }, devices)

def logError (state : Logger × Devices) (message : Text) : Logger × Devices :=
  state.1.print state.2 errorLevel message

def quoteChar? (quote : Text) : Option Char :=
  match quote with
  | [glyph] => some glyph.toChar
  | _ => none

/-- Writes the tables of a program as files in a directory. -/
def dumpProgram (tree : FileTree) (directory : Text) (program : Program) :
    Option Failure × FileTree :=
  match FileTree.makeDirectories (directory.length + 1) directory tree with
  | .error failure => (some failure, tree)
  | .ok tree =>
    let tables : List (Text × List Text) :=
      [("symbols.txt", program.symbols.dump), ("quads.txt", program.quads.dump),
        ("reserved.txt", TokenKind.reservedCodes.dump)]
    tables.foldl (fun (state : Option Failure × FileTree) table =>
      match state with
      | (some failure, tree) => (some failure, tree)
      | (none, tree) =>
        match tree.write (FileTree.join directory table.1) (Text.join table.2).bytes with
        | .ok tree => (none, tree)
        | .error failure => (some failure, tree)) (none, tree)

def checkFiles (options : CompileOptions) (names : List Text) (tree : FileTree)
    (state : Logger × Devices) : CallResult :=
  let results := names.map (CheckResult.ofFile tree options none)
  let state := (results.flatMap (·.watched)).foldl Logger.printEvent state
  let (failed, failure, devices) := CheckResult.writeAll stdout 0 state.2 results
  let result := finish tree (state.1.printFailure devices failure)
  if 0 < failed then { result with exitCode := 1 } else result

def runProgram (settings : Settings) (stdin : Bytes) (tree : FileTree) (program : Program)
    (state : Logger × Devices) : CallResult :=
  let machine := Machine.new program state.2
    [.output (.device stdout), .stepLimit settings.stepLimit.toInt,
      .input (.ofFile "/dev/stdin" stdin), .tracing settings.trace]
  let context : Context := if settings.timeout < 0 then fun _ => some .deadlineExceeded else .background
  let (ending, machine) := machine.run context Machine.horizon
  match ending with
  | .finished failure => finish tree (state.1.printFailure machine.console.devices failure)
  | .outOfFuel => finish tree (state.1, machine.console.devices)

def compileAndRun (settings : Settings) (options : CompileOptions) (stdin : Bytes) (tree : FileTree)
    (name : Text) (state : Logger × Devices) : CallResult :=
  match tree.openStream name with
  | .error failure => finish tree (state.1.printFailure state.2 (some failure))
  | .ok stream =>
    let options := { options with
      watch := { options.watch with echo := settings.echo, diagnostics := true, verdict := true } }
    let compilation := compile options (.ofFile stream)
    let state := state.1.printJournal state.2 compilation.journal
    let (failure, tree) := if settings.dump = [] then (none, tree)
      else dumpProgram tree settings.dump compilation.program
    let state := state.1.printFailure state.2 failure
    match compilation.verdict with
    | .accepted => runProgram settings stdin tree compilation.program state
    | _ => { finish tree state with exitCode := 1 }

/-- What a call does once its flags are read. -/
def perform (settings : Settings) (arguments : List Text) (stdin : Bytes) (tree : FileTree) :
    CallResult :=
  match quoteChar? settings.quote with
  | none =>
    finish tree (logError start
      (.join ["-quote must be a single character, not ", settings.quote.quoted]))
  | some quote =>
    let options : CompileOptions :=
      { quote, watch := { tokens := settings.tokens, trace := settings.trace } }
    if settings.check then checkFiles options arguments tree start
    else if settings.demo ≠ [] then
      match Demo.program? settings.demo with
      | none => finish tree (logError start (.join ["no demo program named ", settings.demo.quoted]))
      | some build => runProgram settings stdin tree (build settings.n) start
    else match arguments with
      | [name] => compileAndRun settings options stdin tree name start
      | _ =>
        finish tree (logError start
          (.join ["expected one source file, got ", .ofNat arguments.length, " arguments"]))

def paths (arguments : List Text) : List Text :=
  match readFlags {} arguments with
  | .ok (settings, names) => (settings.dump :: names).flatMap FileTree.waypoints
  | .error _ => []

/-- Whether a call with the given arguments may read standard input: it does so if it runs a file
whose program has an instruction that reads. -/
def readsInput (arguments : List Text) (tree : FileTree) : Bool :=
  match readFlags {} arguments with
  | .ok (settings, [name]) =>
    match settings.check, settings.demo, quoteChar? settings.quote, tree.openStream name with
    | false, [], some quote, .ok stream =>
      (compile { quote } (.ofFile stream)).program.quads.quads.any (·.op = .read)
    | _, _, _, _ => false
  | _ => false

/-- Calls the program under a name with arguments. -/
def run (program : Text) (arguments : List Text) (stdin : Bytes) (tree : FileTree) : CallResult :=
  match readFlags {} arguments with
  | .ok (settings, arguments) => perform settings arguments stdin tree
  | .error error =>
    { exitCode := if error matches .help then 0 else 2
      output := []
      errors := Text.bytes (error.message?.elim [] Text.line ++ usageText program)
      tree }

end CommandLine

end MiniPascal
