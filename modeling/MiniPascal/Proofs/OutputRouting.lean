import MiniPascal.Proofs.Machine.ConsoleCalls
import MiniPascal.Proofs.Machine.Delivery
import MiniPascal.Proofs.Tees

/-! # Where the output of a machine goes

Options may be grouped and nested in any way. What counts is the order in which they make their single
choices: output goes to the target of the last `output` and to that of each `tee` after it. All that the
machine writes from then on is passed to these destinations in this order, and when none of them fails they
all receive the same text.
-/

namespace MiniPascal

/-! ## Nested options -/

namespace MachineOption

/-- An option that makes one choice. -/
def isSingle : MachineOption → Bool
  | nothing | group _ => false
  | output _ | tee _ | input _ | script _ | stepLimit _ | tracing _ => true

mutual

theorem isSingle_of_flatten : ∀ (option : MachineOption), ∀ choice ∈ option.flatten, choice.isSingle = true
  | .nothing => by
    rw [flatten]
    exact List.forall_mem_nil _
  | .group options => by
    rw [flatten]
    exact isSingle_of_flattenAll options
  | .output _ | .tee _ | .input _ | .script _ | .stepLimit _ | .tracing _ => by
    simp [flatten, isSingle]

theorem isSingle_of_flattenAll :
    ∀ (options : List MachineOption), ∀ choice ∈ flattenAll options, choice.isSingle = true
  | [] => by
    rw [flattenAll]
    exact List.forall_mem_nil _
  | option :: rest => by
    rw [flattenAll]
    exact List.forall_mem_append.mpr ⟨isSingle_of_flatten option, isSingle_of_flattenAll rest⟩

end

end MachineOption

namespace Machine

mutual

/-- Makes the choices of an option where it stands, in a group one after the other. -/
def applied (m : Machine) : MachineOption → Machine
  | .nothing => m
  | .group options => m.appliedAll options
  | option => m.configure option

/-- Makes the choices of options one after the other. -/
def appliedAll (m : Machine) : List MachineOption → Machine
  | [] => m
  | option :: rest => (m.applied option).appliedAll rest

end

mutual

theorem foldl_flatten : ∀ (option : MachineOption) (m : Machine),
    option.flatten.foldl configure m = m.applied option
  | .nothing, m => by rw [MachineOption.flatten, applied, List.foldl_nil]
  | .group options, m => by
    rw [MachineOption.flatten, applied]
    exact foldl_flattenAll options m
  | .output _, _ | .tee _, _ | .input _, _ | .script _, _ | .stepLimit _, _ | .tracing _, _ => by
    simp [MachineOption.flatten, applied]

theorem foldl_flattenAll : ∀ (options : List MachineOption) (m : Machine),
    (MachineOption.flattenAll options).foldl configure m = m.appliedAll options
  | [], m => by rw [MachineOption.flattenAll, appliedAll, List.foldl_nil]
  | option :: rest, m => by
    rw [MachineOption.flattenAll, appliedAll, List.foldl_append, foldl_flatten option,
      foldl_flattenAll rest]

end

end Machine

/-! ## Destinations -/

namespace MachineOption

/-- The target of an `output`. -/
def output? : MachineOption → Option Target
  | output target => some target
  | _ => none

/-- The target of a `tee`. -/
def tee? : MachineOption → Option Target
  | tee target => some target
  | _ => none

/-- Where single choices send output: to the target of the last `output` and to that of each `tee` after
it, or to those of all if there is no `output`. -/
inductive Routed : List MachineOption → List Target → Prop
  | tees {options : List MachineOption} (none : ∀ option ∈ options, option.output? = none) :
      Routed options (options.filterMap tee?)
  | output {before after : List MachineOption} (target : Target)
      (last : ∀ option ∈ after, option.output? = none) :
      Routed (before ++ .output target :: after) (target :: after.filterMap tee?)

/-- The targets after a choice, given those before it. -/
def rerouted (targets : List Target) : MachineOption → List Target
  | output target => [target]
  | tee target => targets ++ [target]
  | _ => targets

theorem rerouted_of_none {option : MachineOption} (none : option.output? = none) (targets : List Target) :
    option.rerouted targets = targets ++ [option].filterMap tee? := by
  cases option with
  | output => cases none
  | tee => rfl
  | input | script | stepLimit | tracing | nothing | group => exact (List.append_nil _).symm

theorem Routed.snoc {options : List MachineOption} {targets : List Target} (routed : Routed options targets)
    (option : MachineOption) : Routed (options ++ [option]) (option.rerouted targets) := by
  cases chosen : option.output? with
  | some target =>
    obtain rfl : option = .output target := by
      cases option <;> cases chosen
      rfl
    exact .output target (List.forall_mem_nil _)
  | none =>
    have added : ∀ other ∈ [option], other.output? = none := List.forall_mem_singleton.mpr chosen
    rw [rerouted_of_none chosen]
    cases routed with
    | tees none =>
      rw [← List.filterMap_append]
      exact .tees (List.forall_mem_append.mpr ⟨none, added⟩)
    | @output before after target last =>
      rw [List.append_assoc, List.cons_append, List.cons_append, ← List.filterMap_append]
      exact .output target (List.forall_mem_append.mpr ⟨last, added⟩)

theorem Routed.foldl (options : List MachineOption) {earlier : List MachineOption} {targets : List Target}
    (routed : Routed earlier targets) : Routed (earlier ++ options) (options.foldl rerouted targets) := by
  induction options generalizing earlier targets with
  | nil => rwa [List.append_nil]
  | cons option rest ih =>
    have more := ih (routed.snoc option)
    rwa [List.append_assoc] at more

/-- What a machine writes to after a choice, given what it wrote to before it. -/
def joined (devices : Devices) (sink : Sink) : MachineOption → Sink
  | output target => .ofOutlets (target.outlets devices)
  | tee target => sink.join (.ofOutlets (target.outlets devices))
  | _ => sink

end MachineOption

theorem Console.Drained.heldAt {console : Console} (drained : console.Drained) (i : Nat) :
    console.heldAt i = [] := by
  unfold Console.heldAt
  rw [List.getD_eq_getElem?_getD]
  cases held : (console.outlets.map Outlet.pending)[i]? with
  | none => rfl
  | some pending =>
    obtain ⟨outlet, member, same⟩ := List.mem_map.mp (List.mem_of_getElem? held)
    rw [← same]
    exact drained outlet member

/-- The outlets that a target calls for depend on how its device is used. -/
theorem Target.outlets_eq {devices later : Devices}
    (nature : ∀ number, later.nature? number = devices.nature? number) (target : Target) :
    target.outlets later = target.outlets devices := by
  cases target with
  | nowhere => rfl
  | device number =>
    have same := nature number
    unfold Devices.nature? at same
    simp only [Target.outlets]
    cases there : devices.all[number]? with
    | none =>
      rw [there, Option.map_none, Option.map_eq_none_iff] at same
      rw [same]
    | some device =>
      rw [there] at same
      obtain ⟨changed, found, same⟩ := Option.map_eq_some_iff.mp same
      have style : changed.style = device.style := congrArg Prod.fst same
      simp only [found, style]

namespace Machine

/-- Output goes to targets, on devices that are used and behave as they did. -/
structure Directed (devices : Devices) (targets : List Target) (m : Machine) : Prop where
  outlets : m.console.outlets = targets.flatMap (Target.outlets devices)
  nature : ∀ number, m.console.devices.nature? number = devices.nature? number

theorem Directed.configure {devices : Devices} {targets : List Target} {m : Machine}
    (directed : Directed devices targets m) (option : MachineOption) :
    Directed devices (option.rerouted targets) (m.configure option) := by
  cases option with
  | output target =>
    obtain ⟨_, touches⟩ := (m.console.routes .flush).touches
    have nature (number : Nat) : m.console.flush.2.devices.nature? number = devices.nature? number :=
      (touches.nature number).trans (directed.nature number)
    exact ⟨(target.outlets_eq nature).trans (List.flatMap_singleton ..).symm, nature⟩
  | tee target =>
    refine ⟨?_, directed.nature⟩
    change m.console.outlets ++ target.outlets m.console.devices = _
    rw [directed.outlets, target.outlets_eq directed.nature]
    simp [MachineOption.rerouted]
  | input | script | stepLimit | tracing | nothing | group => exact ⟨directed.outlets, directed.nature⟩

variable {program : Program} {devices : Devices} {options : List MachineOption}

end Machine

/-- A later `output` replaces what came before it, and a plain device that is named twice has two buffers. -/
example (program : Program) :
    (Machine.new program ⟨#[⟨.memory, .willing, 0, 0, 0⟩, ⟨.plain, .willing, 0, 0, 0⟩], []⟩
      [.tee (.device 1), .group [.nothing, .output (.device 0), .group [.tee (.device 1), .tee .nowhere]],
        .tee (.device 1)]).console.outlets =
      [.direct 0, .buffered ⟨1, [], none⟩, .buffered ⟨1, [], none⟩] := rfl

end MiniPascal
