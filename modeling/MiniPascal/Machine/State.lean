import MiniPascal.Machine.Arithmetic
import MiniPascal.Machine.IntegerSource

/-! # The machine and how it is set up

A machine holds a program, a console to write to, and a source of integers. Options set it up in the
order they are given.
-/

namespace MiniPascal

structure Machine where
  program : Program
  /-- The quad to execute next. -/
  pc : Nat := 0
  /-- The quad fetched last, and where it stands. -/
  current : Nat := 0
  quad : Quad := ⟨.stop, 0, 0, 0⟩
  /-- The quads fetched in this run, counted if there is a limit. -/
  steps : Nat := 0
  /-- How many quads a run may execute, if this is positive. -/
  stepLimit : Int := 0
  console : Console
  input : Input := .ofStreams []
  /-- The scripts given, and the one in use; without one, integers are typed. -/
  scripts : Array Script := #[]
  script : Option Nat := none
  tracing : Bool := false
  /-- The width of the widest label traced so far. -/
  labelWidth : Nat := 0

/-- A choice in setting up a machine. -/
inductive MachineOption where
  /-- All output goes to the target. -/
  | output (target : Target)
  /-- Output goes to the target as well. -/
  | tee (target : Target)
  /-- Lines are read from one more stream. -/
  | input (stream : Stream)
  /-- Integers come from a script. -/
  | script (script : Script)
  | stepLimit (limit : Int)
  | tracing (on : Bool)
  | nothing
  | group (options : List MachineOption)

namespace MachineOption

mutual

/-- The single choices that an option makes, in order. -/
def flatten : MachineOption → List MachineOption
  | group options => flattenAll options
  | nothing => []
  | option => [option]

/-- The single choices that a list of options makes, in order. -/
def flattenAll : List MachineOption → List MachineOption
  | [] => []
  | option :: rest => option.flatten ++ flattenAll rest

end

end MachineOption

namespace Machine

/-- Makes one choice. -/
def configure (machine : Machine) : MachineOption → Machine
  | .output target => { machine with console := machine.console.redirect target }
  | .tee target => { machine with console := machine.console.tee target }
  | .input stream =>
    { machine with input := { machine.input with queue := machine.input.queue ++ [stream] } }
  | .script script =>
    { machine with script := some machine.scripts.size, scripts := machine.scripts.push script }
  | .stepLimit stepLimit => { machine with stepLimit }
  | .tracing tracing => { machine with tracing }
  | .nothing | .group _ => machine

/-- A machine for a program, set up by options. -/
def new (program : Program) (devices : Devices) (options : List MachineOption) : Machine :=
  (MachineOption.flattenAll options).foldl configure { program, console := { devices } }

def close (machine : Machine) : Option Failure × Machine :=
  match machine.script.bind fun i => machine.scripts[i]?.map fun script => (i, script.close) with
  | none => (none, machine)
  | some (i, failure, script) => (failure, { machine with scripts := machine.scripts.set! i script })

end Machine

end MiniPascal
