import MiniPascal.Proofs.Output

/-! # How a console distributes what is written to it

Every write is passed whole to one outlet after the other, up to the first that fails or accepts less than
all of it. Every flush is passed to all outlets, and the first failure is its answer. When nothing fails,
each outlet has passed the same text on to its device, but for the end of it that its buffer holds. That is
so even if two outlets lead to one device: it receives the pieces of both in turn.
-/

namespace MiniPascal

/-! ## Devices -/

namespace Devices

variable {devices middle later : Devices} {number other : Nat} {bytes : Bytes}

/-- What does not change about a device: how it is used and how it behaves. -/
def nature? (devices : Devices) (number : Nat) : Option (DeviceStyle × Manner) :=
  (devices.all[number]?).map fun device => (device.style, device.manner)

/-- Nothing has happened to a device. -/
structure SameAt (devices later : Devices) (number : Nat) : Prop where
  device : later.all[number]? = devices.all[number]?
  events : later.events number = devices.events number

theorem SameAt.refl (devices : Devices) (number : Nat) : SameAt devices devices number := ⟨rfl, rfl⟩

theorem SameAt.trans (first : SameAt devices middle number) (second : SameAt middle later number) :
    SameAt devices later number :=
  ⟨second.device.trans first.device, second.events.trans first.events⟩

theorem SameAt.received (same : SameAt devices later number) :
    later.received number = devices.received number := by
  rw [Devices.received, same.events, Devices.received]

private theorem nature?_set {device changed : Device} (found : devices.all[number]? = some device)
    (style : changed.style = device.style) (manner : changed.manner = device.manner)
    (effects : List Effect) (other : Nat) :
    nature? ⟨devices.all.set! number changed, effects⟩ other = devices.nature? other := by
  unfold nature?
  rw [Array.set!_eq_setIfInBounds, Array.getElem?_setIfInBounds]
  split
  · rename_i same
    subst same
    rw [found]
    split
    · rw [Option.map_some, Option.map_some, style, manner]
    · rename_i outside
      rw [Array.getElem?_eq_none (by omega)] at found
      cases found
  · rfl

@[simp] theorem nature?_write (devices : Devices) (number : Nat) (bytes : Bytes) (other : Nat) :
    (devices.write number bytes).2.nature? other = devices.nature? other := by
  unfold write
  split
  · rfl
  · rename_i found
    split
    · apply nature?_set found
      · rfl
      · rfl
    · apply nature?_set found
      · rfl
      · rfl

@[simp] theorem nature?_flush (devices : Devices) (number other : Nat) :
    (devices.flush number).2.nature? other = devices.nature? other := by
  unfold flush
  split
  · rfl
  · rename_i found
    apply nature?_set found
    · rfl
    · rfl

private theorem sameAt_set {changed : Device} {event : DeviceEvent} (elsewhere : other ≠ number) :
    SameAt devices ⟨devices.all.set! number changed, .device number event :: devices.effects⟩ other := by
  refine ⟨?_, ?_⟩
  · rw [Array.set!_eq_setIfInBounds, Array.getElem?_setIfInBounds_ne elsewhere.symm]
  · simp [events, elsewhere.symm]

theorem sameAt_write (elsewhere : other ≠ number) (bytes : Bytes) :
    SameAt devices (devices.write number bytes).2 other := by
  unfold write
  split
  · exact .refl _ _
  · split
    · exact sameAt_set elsewhere
    · exact sameAt_set elsewhere

theorem sameAt_flush (elsewhere : other ≠ number) : SameAt devices (devices.flush number).2 other := by
  unfold flush
  split
  · exact .refl _ _
  · exact sameAt_set elsewhere

theorem manner?_eq (devices : Devices) (number : Nat) :
    devices.manner? number = (devices.nature? number).map Prod.snd := by
  rw [manner?, nature?, Option.map_map]
  rfl

theorem exists_manner (present : devices.nature? number ≠ none) :
    ∃ manner, devices.manner? number = some manner := by
  cases here : devices.all[number]? with
  | none => simp [nature?, here] at present
  | some device => exact ⟨device.manner, by rw [manner?, here, Option.map_some]⟩

end Devices

/-- A write that failed, or that accepted less than all of the bytes. -/
def Written.Lacks (written : Written) (bytes : Bytes) : Prop :=
  written.failure ≠ none ∨ written.count < bytes.length

/-! ## One outlet -/

namespace Outlet

variable {bytes more piece part : Bytes} {outlet between changed : Outlet}
variable {devices middle later : Devices}

/-- An outlet as it was when nothing had been written to it. -/
def emptied : Outlet → Outlet
  | direct device => direct device
  | flushing device => flushing device
  | buffered buffer => buffered ⟨buffer.device, [], none⟩

theorem number_emptied (outlet : Outlet) : outlet.emptied.number = outlet.number := by
  cases outlet <;> rfl

/-- Whatever an outlet was asked to do, it leads where it led before, and only its device was asked. -/
structure Remains (outlet : Outlet) (devices : Devices) (changed : Outlet) (later : Devices) : Prop where
  emptied : changed.emptied = outlet.emptied
  nature : ∀ number, later.nature? number = devices.nature? number
  others : ∀ number, number ≠ outlet.number → devices.SameAt later number

theorem Remains.number (remains : Remains outlet devices changed later) : changed.number = outlet.number := by
  rw [← number_emptied, remains.emptied, number_emptied]

theorem Remains.refl (outlet : Outlet) (devices : Devices) : Remains outlet devices outlet devices :=
  ⟨rfl, fun _ => rfl, fun _ _ => .refl _ _⟩

theorem Remains.trans (first : Remains outlet devices between middle)
    (second : Remains between middle changed later) : Remains outlet devices changed later := by
  refine ⟨second.emptied.trans first.emptied, fun n => (second.nature n).trans (first.nature n), ?_⟩
  intro number other
  exact (first.others number other).trans (second.others number (first.number.symm ▸ other))

theorem Remains.of_write (outlet : Outlet) (devices : Devices) (bytes : Bytes) :
    Remains outlet devices outlet (devices.write outlet.number bytes).2 :=
  ⟨rfl, Devices.nature?_write _ _ _, fun _ other => Devices.sameAt_write other _⟩

/-- What a buffer holds makes no difference. -/
theorem Remains.refilled (buffer : Buffer) (devices : Devices) (pending : Bytes) (stuck : Option Failure) :
    Remains (.buffered buffer) devices (.buffered ⟨buffer.device, pending, stuck⟩) devices :=
  ⟨rfl, fun _ => rfl, fun _ _ => .refl _ _⟩

/-- An outlet has taken in bytes and passed a piece of what it held and took in on to its device. -/
structure Hands (bytes piece : Bytes) (outlet : Outlet) (devices : Devices) (changed : Outlet)
    (later : Devices) : Prop extends Remains outlet devices changed later where
  text : outlet.pending ++ bytes = piece ++ changed.pending
  received : later.received outlet.number = devices.received outlet.number ++ piece

theorem Hands.refl (outlet : Outlet) (devices : Devices) : Hands [] [] outlet devices outlet devices :=
  ⟨.refl _ _, List.append_nil _, (List.append_nil _).symm⟩

theorem Hands.trans (first : Hands bytes piece outlet devices between middle)
    (second : Hands more part between middle changed later) :
    Hands (bytes ++ more) (piece ++ part) outlet devices changed later := by
  refine ⟨first.toRemains.trans second.toRemains, ?_, ?_⟩
  · rw [← List.append_assoc, first.text, List.append_assoc, second.text, List.append_assoc]
  · have there := second.received
    rw [first.number] at there
    rw [there, first.received, List.append_assoc]

end Outlet

namespace Buffer

open Outlet

variable {buffer : Buffer} {devices : Devices} {bytes : Bytes}

theorem flush_remains (buffer : Buffer) (devices : Devices) :
    Remains (.buffered buffer) devices (.buffered (buffer.flush devices).2.1)
      (buffer.flush devices).2.2 := by
  cases clear : buffer.stuck with
  | some failure =>
    simp only [flush, clear]
    exact .refl _ _
  | none =>
    by_cases empty : buffer.pending = []
    · rw [flush_of_empty clear empty]
      exact .refl _ _
    · rw [flush_of_pending clear empty]
      exact (Remains.refilled buffer devices _ _).trans (.of_write _ devices _)

theorem writeMore_remains (fuel : Nat) : ∀ (buffer : Buffer) (devices : Devices) (accepted : Nat)
    (bytes : Bytes), Remains (.buffered buffer) devices
      (.buffered (buffer.writeMore devices fuel accepted bytes).2.1)
      (buffer.writeMore devices fuel accepted bytes).2.2 := by
  induction fuel with
  | zero => exact fun _ _ _ _ => .refl _ _
  | succ fuel ih =>
    intro buffer devices accepted bytes
    cases clear : buffer.stuck with
    | some failure =>
      simp only [writeMore, clear]
      exact .refl _ _
    | none =>
      by_cases fits : bytes.length ≤ capacity - buffer.pending.length
      · rw [writeMore_of_fits clear fits]
        exact .refilled _ _ _ _
      have long := Nat.not_le.mp fits
      by_cases empty : buffer.pending = []
      · rw [empty, List.length_nil, Nat.sub_zero] at long
        rw [writeMore_of_empty clear empty long]
        have direct := (Remains.refilled buffer devices []
          (devices.write buffer.device bytes).1.failure).trans (.of_write _ devices bytes)
        exact direct.trans (ih _ _ _ _)
      · rw [writeMore_of_full clear empty long]
        have filling : Remains (.buffered buffer) devices (.buffered (buffer.filled bytes)) devices :=
          .refilled _ _ _ _
        exact filling.trans ((flush_remains _ _).trans (ih _ _ _ _))

theorem flush_hands (present : devices.nature? buffer.device ≠ none)
    (silent : (buffer.flush devices).1 = none) :
    ∃ piece, Hands [] piece (.buffered buffer) devices (.buffered (buffer.flush devices).2.1)
      (buffer.flush devices).2.2 := by
  have remains := flush_remains buffer devices
  cases clear : buffer.stuck with
  | some failure => simp [flush, clear] at silent
  | none =>
    by_cases empty : buffer.pending = []
    · rw [flush_of_empty clear empty]
      exact ⟨[], .refl _ _⟩
    · obtain ⟨_, found⟩ := Devices.exists_manner present
      have received := Devices.received_write found buffer.pending
      rw [flush_of_pending clear empty] at silent remains ⊢
      -- no failure is reported, so the device has taken in all that was pending
      have all : buffer.pending.length ≤ (devices.write buffer.device buffer.pending).1.count := by
        unfold shortfall at silent
        split at silent
        · cases silent
        · rename_i enough
          have accepts : (devices.write buffer.device buffer.pending).1.failure = none := silent
          simpa [accepts] using enough
      rw [List.take_of_length_le all] at received
      refine ⟨buffer.pending, remains, ?_, received⟩
      rw [Outlet.pending, Outlet.pending, List.drop_eq_nil_of_le all]

theorem writeMore_hands (fuel : Nat) : ∀ (buffer : Buffer) (devices : Devices) (accepted : Nat)
    (bytes : Bytes), devices.nature? buffer.device ≠ none →
    (buffer.writeMore devices fuel accepted bytes).1.failure = none →
    ∃ piece, Hands bytes piece (.buffered buffer) devices
      (.buffered (buffer.writeMore devices fuel accepted bytes).2.1)
      (buffer.writeMore devices fuel accepted bytes).2.2 := by
  induction fuel with
  | zero =>
    intro buffer devices accepted bytes _ silent
    cases silent
  | succ fuel ih =>
    intro buffer devices accepted bytes present silent
    cases clear : buffer.stuck with
    | some failure => exact absurd silent (writeMore_stuck clear _ _)
    | none =>
      by_cases fits : bytes.length ≤ capacity - buffer.pending.length
      · rw [writeMore_of_fits clear fits]
        exact ⟨[], .refilled _ _ _ _, rfl, (List.append_nil _).symm⟩
      have long := Nat.not_le.mp fits
      by_cases empty : buffer.pending = []
      · rw [empty, List.length_nil, Nat.sub_zero] at long
        rw [writeMore_of_empty clear empty long] at silent ⊢
        obtain ⟨_, found⟩ := Devices.exists_manner present
        have direct : Hands (bytes.take (devices.write buffer.device bytes).1.count)
            (bytes.take (devices.write buffer.device bytes).1.count) (.buffered buffer) devices
            (.buffered ⟨buffer.device, [], (devices.write buffer.device bytes).1.failure⟩)
            (devices.write buffer.device bytes).2 := by
          refine ⟨(Remains.refilled buffer devices _ _).trans (.of_write _ devices bytes), ?_,
            Devices.received_write found bytes⟩
          rw [Outlet.pending, Outlet.pending, empty, List.nil_append, List.append_nil]
        obtain ⟨piece, rest⟩ := ih _ _ _ _ (by rwa [Devices.nature?_write]) silent
        have all := direct.trans rest
        rw [List.take_append_drop] at all
        exact ⟨_, all⟩
      · rw [writeMore_of_full clear empty long] at silent ⊢
        cases flushes : ((buffer.filled bytes).flush devices).1 with
        | some failure => exact absurd silent (writeMore_stuck (stuck_of_flush flushes) _ _)
        | none =>
          have filling : Hands (bytes.take (capacity - buffer.pending.length)) [] (.buffered buffer) devices
              (.buffered (buffer.filled bytes)) devices :=
            ⟨.refilled _ _ _ _, rfl, (List.append_nil _).symm⟩
          have present' : devices.nature? (buffer.filled bytes).device ≠ none := present
          obtain ⟨part, flushing⟩ := flush_hands present' flushes
          have same : ((buffer.filled bytes).flush devices).2.1.device = buffer.device := flushing.number
          obtain ⟨piece, rest⟩ := ih _ _ _ _ (by rwa [same, flushing.nature]) silent
          have all := (filling.trans flushing).trans rest
          rw [List.append_nil, List.take_append_drop] at all
          exact ⟨_, all⟩

end Buffer

namespace Outlet

variable {outlet : Outlet} {devices : Devices} {bytes : Bytes}

theorem write_remains (outlet : Outlet) (devices : Devices) (bytes : Bytes) :
    Remains outlet devices (outlet.write devices bytes).2.1 (outlet.write devices bytes).2.2 := by
  cases outlet with
  | direct device => exact .of_write (direct device) devices bytes
  | flushing device => exact .of_write (flushing device) devices bytes
  | buffered buffer => exact Buffer.writeMore_remains (2 * bytes.length + 3) buffer devices 0 bytes

theorem flush_remains (outlet : Outlet) (devices : Devices) :
    Remains outlet devices (outlet.flush devices).2.1 (outlet.flush devices).2.2 := by
  cases outlet with
  | direct device => exact .refl _ _
  | flushing device =>
    exact ⟨rfl, Devices.nature?_flush _ _, fun _ other => Devices.sameAt_flush other⟩
  | buffered buffer => exact buffer.flush_remains devices

theorem write_hands (present : devices.nature? outlet.number ≠ none)
    (accepts : ¬ (outlet.write devices bytes).1.Lacks bytes) :
    ∃ piece, Hands bytes piece outlet devices (outlet.write devices bytes).2.1
      (outlet.write devices bytes).2.2 := by
  obtain ⟨silent, all⟩ := not_or.mp accepts
  have silent := not_not.mp silent
  have whole (device : Nat) (count : ¬ (devices.write device bytes).1.count < bytes.length)
      (present : devices.nature? device ≠ none) : (devices.write device bytes).2.received device =
        devices.received device ++ bytes := by
    obtain ⟨_, found⟩ := Devices.exists_manner present
    rw [Devices.received_write found, List.take_of_length_le (Nat.not_lt.mp count)]
  cases outlet with
  | direct device =>
    exact ⟨bytes, write_remains _ _ _, (List.append_nil _).symm, whole device all present⟩
  | flushing device =>
    exact ⟨bytes, write_remains _ _ _, (List.append_nil _).symm, whole device all present⟩
  | buffered buffer =>
    exact Buffer.writeMore_hands (2 * bytes.length + 3) buffer devices 0 bytes present silent

theorem flush_hands (present : devices.nature? outlet.number ≠ none)
    (silent : (outlet.flush devices).1 = none) :
    ∃ piece, Hands [] piece outlet devices (outlet.flush devices).2.1 (outlet.flush devices).2.2 := by
  cases outlet with
  | direct device => exact ⟨[], .refl _ _⟩
  | flushing device =>
    refine ⟨[], flush_remains _ _, rfl, ?_⟩
    exact (Devices.received_flush _ _ _).trans (List.append_nil _).symm
  | buffered buffer => exact Buffer.flush_hands present silent

end Outlet

/-! ## Several outlets -/

namespace Console

/-- One outlet after the other does the same, each with the devices as the one before it left them. -/
inductive InTurn {α : Type} (does : Outlet → Devices → α × Outlet × Devices) :
    List Outlet → Devices → List α → List Outlet → Devices → Prop
  | nil (devices : Devices) : InTurn does [] devices [] [] devices
  | cons {outlet : Outlet} {rest changed : List Outlet} {devices later : Devices} {answers : List α}
      (others : InTurn does rest (does outlet devices).2.2 answers changed later) :
      InTurn does (outlet :: rest) devices ((does outlet devices).1 :: answers)
        ((does outlet devices).2.1 :: changed) later

/-- The outlets lead where they led before, and only some devices were asked. -/
structure Touches (reached : List Nat) (console after : Console) : Prop where
  outlets : after.outlets.map Outlet.emptied = console.outlets.map Outlet.emptied
  nature : ∀ number, after.devices.nature? number = console.devices.nature? number
  others : ∀ number ∉ reached, console.devices.SameAt after.devices number

variable {α : Type} {does : Outlet → Devices → α × Outlet × Devices} {bytes : Bytes}
variable {outlet : Outlet} {outlets rest changed : List Outlet} {devices later : Devices}
variable {answers : List α} {reached : List Nat}

theorem InTurn.touches (remains : ∀ outlet devices, Outlet.Remains outlet devices
      (does outlet devices).2.1 (does outlet devices).2.2)
    (turn : InTurn does outlets devices answers changed later) :
    Touches (outlets.map Outlet.number) ⟨outlets, devices⟩ ⟨changed, later⟩ := by
  induction turn with
  | nil => exact ⟨rfl, fun _ => rfl, fun _ _ => .refl _ _⟩
  | @cons outlet rest changed devices later answers _ ih =>
    have head := remains outlet devices
    refine ⟨List.cons_eq_cons.mpr ⟨head.emptied, ih.outlets⟩,
      fun number => (ih.nature number).trans (head.nature number), fun number absent => ?_⟩
    rw [List.map_cons, List.mem_cons, not_or] at absent
    obtain ⟨other, absent⟩ := absent
    exact (head.others number other).trans (ih.others number absent)

/-! ## Writing -/

/-- Bytes are passed whole to one outlet after the other, as long as each takes in all of them. The console
answers for the outlet that does not, with the same count and with its failure if there is one. -/
inductive Offered (bytes : Bytes) (outlets : List Outlet) (devices : Devices) :
    (reached : List Nat) → Written → List Outlet → Devices → Prop
  | accepted {answers : List Written} {changed : List Outlet} {later : Devices} {answer : Written}
      (turn : InTurn (fun outlet devices => outlet.write devices bytes) outlets devices answers changed later)
      (all : ∀ answer ∈ answers, ¬ answer.Lacks bytes) (accepts : ¬ answer.Lacks bytes) :
      Offered bytes outlets devices (outlets.map Outlet.number) answer changed later
  | stopped {before rest changed : List Outlet} {outlet : Outlet} {answers : List Written}
      {middle : Devices} {answer : Written} (split : outlets = before ++ outlet :: rest)
      (turn : InTurn (fun outlet devices => outlet.write devices bytes) before devices answers changed middle)
      (all : ∀ answer ∈ answers, ¬ answer.Lacks bytes) (stops : (outlet.write middle bytes).1.Lacks bytes)
      (lacks : answer.Lacks bytes) (count : answer.count = (outlet.write middle bytes).1.count)
      (failure : ∀ failure, (outlet.write middle bytes).1.failure = some failure →
        answer.failure = some failure) :
      Offered bytes outlets devices ((before ++ [outlet]).map Outlet.number) answer
        (changed ++ (outlet.write middle bytes).2.1 :: rest) (outlet.write middle bytes).2.2

variable {answer : Written}

theorem Offered.touches (offered : Offered bytes outlets devices reached answer changed later) :
    Touches reached ⟨outlets, devices⟩ ⟨changed, later⟩ := by
  cases offered with
  | accepted turn => exact turn.touches fun outlet devices => outlet.write_remains devices bytes
  | @stopped before rest changed outlet answers middle _ split turn =>
    have first := turn.touches fun outlet devices => outlet.write_remains devices bytes
    have last := outlet.write_remains middle bytes
    refine ⟨?_, fun number => (last.nature number).trans (first.nature number), fun number absent => ?_⟩
    · rw [split, List.map_append, List.map_append, List.map_cons, List.map_cons, last.emptied]
      exact congrArg (· ++ _) first.outlets
    · rw [List.map_append, List.mem_append, List.map_singleton, List.mem_singleton, not_or] at absent
      exact (first.others number absent.1).trans (last.others number absent.2)

theorem Offered.cons (accepts : ¬ (outlet.write devices bytes).1.Lacks bytes)
    (offered : Offered bytes rest (outlet.write devices bytes).2.2 reached answer changed later) :
    Offered bytes (outlet :: rest) devices (outlet.number :: reached) answer
      ((outlet.write devices bytes).2.1 :: changed) later := by
  cases offered with
  | accepted turn all accepts' => exact .accepted turn.cons (List.forall_mem_cons.mpr ⟨accepts, all⟩) accepts'
  | stopped split turn all stops lacks count failure =>
    have split := congrArg (outlet :: ·) split
    exact .stopped split turn.cons (List.forall_mem_cons.mpr ⟨accepts, all⟩) stops lacks count failure

theorem writeAll_offered (bytes : Bytes) (outlets : List Outlet) : ∀ devices : Devices,
    ∃ reached, Offered bytes outlets devices reached (writeAll bytes devices outlets).1
      (writeAll bytes devices outlets).2.1 (writeAll bytes devices outlets).2.2 := by
  induction outlets with
  | nil =>
    intro devices
    refine ⟨[], .accepted (.nil devices) (List.forall_mem_nil _) ?_⟩
    simp [writeAll, Written.Lacks]
  | cons outlet rest ih =>
    intro devices
    have split : outlet :: rest = [] ++ outlet :: rest := rfl
    cases fails : (outlet.write devices bytes).1.failure with
    | some failure =>
      have stops : (outlet.write devices bytes).1.Lacks bytes := .inl (by simp [fails])
      simp only [writeAll, fails, Option.isSome_some, if_true]
      exact ⟨_, .stopped split (.nil devices) (List.forall_mem_nil _) stops stops rfl fun _ => id⟩
    | none =>
      by_cases short : (outlet.write devices bytes).1.count < bytes.length
      · simp only [writeAll, fails, Option.isSome_none, short, if_true]
        refine ⟨_, .stopped split (.nil devices) (List.forall_mem_nil _) (.inr short)
          (.inr short) rfl fun failure reported => ?_⟩
        rw [fails] at reported
        cases reported
      · have accepts : ¬ (outlet.write devices bytes).1.Lacks bytes := by simp [Written.Lacks, fails, short]
        obtain ⟨reached, offered⟩ := ih (outlet.write devices bytes).2.2
        simp only [writeAll, fails, Option.isSome_none, short, if_false]
        exact ⟨_, offered.cons accepts⟩

/-- What a console is asked to write is passed on in order; a single outlet answers for itself. -/
theorem write_offered (console : Console) (bytes : Bytes) :
    ∃ reached, Offered bytes console.outlets console.devices reached (console.write bytes).1
      (console.write bytes).2.outlets (console.write bytes).2.devices := by
  obtain ⟨_ | ⟨outlet, _ | ⟨second, rest⟩⟩, devices⟩ := console
  · exact writeAll_offered bytes [] devices
  · by_cases lacks : (outlet.write devices bytes).1.Lacks bytes
    · have split : [outlet] = [] ++ outlet :: [] := rfl
      exact ⟨_, .stopped split (.nil devices) (List.forall_mem_nil _) lacks lacks rfl fun _ => id⟩
    · exact ⟨_, .accepted (.cons (.nil _)) (List.forall_mem_singleton.mpr lacks) lacks⟩
  · rw [write_of_many]
    exact writeAll_offered bytes (outlet :: second :: rest) devices

/-! ## Flushing -/

/-- A flush is passed to all outlets, and the first failure counts. -/
theorem flushAll_inTurn (outlets : List Outlet) : ∀ devices : Devices,
    ∃ answers, InTurn Outlet.flush outlets devices answers (flushAll devices outlets).2.1
      (flushAll devices outlets).2.2 ∧ (flushAll devices outlets).1 = answers.findSome? id := by
  induction outlets with
  | nil => exact fun devices => ⟨[], .nil devices, rfl⟩
  | cons outlet rest ih =>
    intro devices
    obtain ⟨answers, turn, first⟩ := ih (outlet.flush devices).2.2
    refine ⟨_, turn.cons, ?_⟩
    rw [flushAll_cons, first, List.findSome?_cons]
    cases (outlet.flush devices).1 <;> rfl

end Console

/-! ## Calls of a console -/

/-- What a console can be asked to do. -/
inductive ConsoleCall where
  | write (bytes : Bytes)
  | flush
  | trace (line : Text)

/-- The text of a call. -/
def ConsoleCall.text : ConsoleCall → Bytes
  | write bytes => bytes
  | flush | trace _ => []

namespace Console

variable {console between after : Console} {bytes more : Bytes} {call : ConsoleCall}

/-- The console after a call. -/
def called (console : Console) : ConsoleCall → Console
  | .write bytes => (console.write bytes).2
  | .flush => console.flush.2
  | .trace line => console.trace line

/-- A write is passed to the outlets in order up to the first that does not take in all of it, and a flush
to all of them, returning the first failure. No other device is asked for anything. -/
inductive Routes (console : Console) : ConsoleCall → Prop
  | write {bytes : Bytes} {reached : List Nat}
      (offered : Offered bytes console.outlets console.devices reached (console.write bytes).1
        (console.write bytes).2.outlets (console.write bytes).2.devices)
      (touches : Touches reached console (console.write bytes).2) : Routes console (.write bytes)
  | flush {answers : List (Option Failure)}
      (turn : InTurn Outlet.flush console.outlets console.devices answers console.flush.2.outlets
        console.flush.2.devices)
      (first : console.flush.1 = answers.findSome? id)
      (touches : Touches console.numbers console console.flush.2) : Routes console .flush
  | trace {line : Text} (touches : Touches [] console (console.trace line)) : Routes console (.trace line)

theorem routes (console : Console) (call : ConsoleCall) : console.Routes call := by
  cases call with
  | write bytes =>
    obtain ⟨reached, offered⟩ := console.write_offered bytes
    exact .write offered offered.touches
  | flush =>
    obtain ⟨answers, turn, first⟩ := flushAll_inTurn console.outlets console.devices
    exact .flush turn first (turn.touches Outlet.flush_remains)
  | trace line =>
    exact .trace ⟨rfl, fun _ => rfl, fun _ _ => ⟨rfl, Devices.events_trace _ _ _⟩⟩

theorem Routes.touches (routes : console.Routes call) :
    ∃ reached, Touches reached console (console.called call) := by
  cases routes with
  | write _ touches | flush _ _ touches | trace touches => exact ⟨_, touches⟩

/-! ## What the outlets have passed on -/

/-- What an outlet holds back. -/
def heldAt (console : Console) (i : Nat) : Bytes := (console.outlets.map Outlet.pending).getD i []

/-- What a device receives in a round in which each outlet passes one piece on. -/
def share (numbers : List Nat) (number : Nat) (round : List Bytes) : Bytes :=
  (numbers.zip round).flatMap fun entry => if entry.1 = number then entry.2 else []

/-- Each outlet has taken in the same bytes and passed pieces of what it held and took in on to its device,
one in each round. -/
structure Shares (bytes : Bytes) (rounds : List (List Bytes)) (console after : Console) : Prop where
  numbers : after.numbers = console.numbers
  nature : ∀ number, after.devices.nature? number = console.devices.nature? number
  text : ∀ i < console.outlets.length,
    console.heldAt i ++ bytes = rounds.flatMap (·.getD i []) ++ after.heldAt i
  received : ∀ number, after.devices.received number =
    console.devices.received number ++ rounds.flatMap (share console.numbers number)

theorem Shares.refl (console : Console) : Shares [] [] console console :=
  ⟨rfl, fun _ => rfl, fun _ _ => List.append_nil _, fun _ => (List.append_nil _).symm⟩

theorem Shares.trans {rounds later : List (List Bytes)} (first : Shares bytes rounds console between)
    (second : Shares more later between after) : Shares (bytes ++ more) (rounds ++ later) console after := by
  have length : between.outlets.length = console.outlets.length := by
    have same := congrArg List.length first.numbers
    rwa [Console.numbers, Console.numbers, List.length_map, List.length_map] at same
  refine ⟨second.numbers.trans first.numbers, fun n => (second.nature n).trans (first.nature n), ?_, ?_⟩
  · intro i bound
    rw [← List.append_assoc, first.text i bound, List.append_assoc, second.text i (length ▸ bound),
      List.flatMap_append, List.append_assoc]
  · intro number
    rw [second.received, first.received, first.numbers, List.flatMap_append, List.append_assoc]

/-- The devices that the outlets lead to are there. -/
def Present (console : Console) : Prop :=
  ∀ outlet ∈ console.outlets, console.devices.nature? outlet.number ≠ none

theorem InTurn.shares {α : Type} {does : Outlet → Devices → α × Outlet × Devices} {good : α → Prop}
    {outlets changed : List Outlet} {devices later : Devices} {answers : List α}
    (hands : ∀ outlet devices, devices.nature? outlet.number ≠ none → good (does outlet devices).1 →
      ∃ piece, Outlet.Hands bytes piece outlet devices (does outlet devices).2.1 (does outlet devices).2.2)
    (turn : InTurn does outlets devices answers changed later) (present : Present ⟨outlets, devices⟩)
    (all : ∀ answer ∈ answers, good answer) :
    ∃ round, Shares bytes [round] ⟨outlets, devices⟩ ⟨changed, later⟩ := by
  induction turn with
  | nil devices =>
    refine ⟨[], rfl, fun _ => rfl, fun i bound => absurd bound (Nat.not_lt_zero i), fun number => ?_⟩
    exact (List.append_nil _).symm
  | @cons outlet rest changed devices later answers _ ih =>
    obtain ⟨accepts, all⟩ := List.forall_mem_cons.mp all
    obtain ⟨here, there⟩ := List.forall_mem_cons.mp present
    obtain ⟨piece, head⟩ := hands outlet devices here accepts
    obtain ⟨round, tail⟩ := ih (fun found member => by rw [head.nature]; exact there found member) all
    refine ⟨piece :: round, List.cons_eq_cons.mpr ⟨head.number, tail.numbers⟩,
      fun number => (tail.nature number).trans (head.nature number), fun i bound => ?_, fun number => ?_⟩
    · cases i with
      | zero => simpa [heldAt] using head.text
      | succ i => simpa [heldAt] using tail.text i (Nat.lt_of_succ_lt_succ bound)
    · have split : share (outlet.number :: rest.map Outlet.number) number (piece :: round) =
          (if outlet.number = number then piece else []) ++ share (rest.map Outlet.number) number round := rfl
      have first : (does outlet devices).2.2.received number =
          devices.received number ++ if outlet.number = number then piece else [] := by
        split
        · rename_i same
          rw [← same, head.received]
        · rename_i other
          rw [(head.others number (Ne.symm other)).received, List.append_nil]
      have others : later.received number = (does outlet devices).2.2.received number ++
          [round].flatMap (share (rest.map Outlet.number) number) := tail.received number
      change later.received number = devices.received number ++
        [piece :: round].flatMap (share (outlet.number :: rest.map Outlet.number) number)
      rw [others, first, List.flatMap_singleton, List.flatMap_singleton, split, List.append_assoc]

theorem Offered.shares {outlets changed : List Outlet} {devices later : Devices} {reached : List Nat}
    {answer : Written} (offered : Offered bytes outlets devices reached answer changed later)
    (present : Present ⟨outlets, devices⟩) (accepts : ¬ answer.Lacks bytes) :
    ∃ round, Shares bytes [round] ⟨outlets, devices⟩ ⟨changed, later⟩ := by
  cases offered with
  | accepted turn all => exact turn.shares (fun _ _ => Outlet.write_hands) present all
  | stopped _ _ _ _ lacks => exact absurd lacks accepts

/-- The console after some calls. -/
def calledAll (console : Console) (calls : List ConsoleCall) : Console := calls.foldl called console

theorem calledAll_append (console : Console) (calls later : List ConsoleCall) :
    console.calledAll (calls ++ later) = (console.calledAll calls).calledAll later :=
  List.foldl_append ..

theorem Shares.present {rounds : List (List Bytes)} (shares : Shares bytes rounds console after)
    (present : console.Present) : after.Present := by
  intro outlet member
  have leads : outlet.number ∈ console.numbers := shares.numbers ▸ List.mem_map_of_mem member
  obtain ⟨before, member, same⟩ := List.mem_map.mp leads
  rw [shares.nature, ← same]
  exact present before member

/-- An outlet that has not failed and leads to a device that never fails. -/
structure Dependable (devices : Devices) (outlet : Outlet) : Prop where
  clear : outlet.stuck = none
  reliable : ∃ manner, devices.manner? outlet.number = some manner ∧ manner.Reliable

section Dependable

variable {α : Type} {does : Outlet → Devices → α × Outlet × Devices}
variable {outlet : Outlet} {outlets changed : List Outlet} {devices later : Devices}
variable {answers : List α} {reached : List Nat} {answer : Written}

theorem Dependable.served (dependable : Dependable devices outlet) :
    Served Manner.Reliable ⟨[outlet], devices⟩ := by
  refine ⟨by simp, fun number member => ?_⟩
  obtain rfl := List.mem_singleton.mp member
  exact dependable.reliable

theorem Dependable.of_nature (dependable : Dependable devices outlet)
    (nature : ∀ number, later.nature? number = devices.nature? number) : Dependable later outlet := by
  refine ⟨dependable.clear, ?_⟩
  rw [Devices.manner?_eq, nature, ← Devices.manner?_eq]
  exact dependable.reliable

theorem Dependable.write (dependable : Dependable devices outlet) (bytes : Bytes) :
    ¬ (outlet.write devices bytes).1.Lacks bytes ∧
      Dependable (outlet.write devices bytes).2.2 (outlet.write devices bytes).2.1 := by
  have silent := outlet.write_of_reliable dependable.served dependable.clear bytes
  obtain ⟨passes, count⟩ :=
    Outlet.write_passes (dependable.served.mono fun _ => Manner.Reliable.honest) silent
  have after := (passes.served dependable.served).single_manner
  refine ⟨?_, passes.fluent _ (List.mem_singleton_self _), after⟩
  rintro (fails | short)
  · exact fails silent
  · omega

theorem Dependable.flush (dependable : Dependable devices outlet) :
    (outlet.flush devices).1 = none ∧
      Dependable (outlet.flush devices).2.2 (outlet.flush devices).2.1 := by
  have silent := outlet.flush_of_reliable dependable.served dependable.clear
  obtain ⟨passes, _⟩ :=
    Outlet.flush_passes (dependable.served.mono fun _ => Manner.Reliable.honest) silent
  exact ⟨silent, passes.fluent _ (List.mem_singleton_self _),
    (passes.served dependable.served).single_manner⟩

theorem InTurn.dependable (good : α → Prop) (remains : ∀ outlet devices, Outlet.Remains outlet devices
      (does outlet devices).2.1 (does outlet devices).2.2)
    (each : ∀ outlet devices, Dependable devices outlet →
      good (does outlet devices).1 ∧ Dependable (does outlet devices).2.2 (does outlet devices).2.1)
    (turn : InTurn does outlets devices answers changed later)
    (all : ∀ outlet ∈ outlets, Dependable devices outlet) :
    (∀ answer ∈ answers, good answer) ∧ ∀ outlet ∈ changed, Dependable later outlet := by
  induction turn with
  | nil => exact ⟨List.forall_mem_nil _, List.forall_mem_nil _⟩
  | @cons outlet rest changed devices later answers others ih =>
    obtain ⟨here, there⟩ := List.forall_mem_cons.mp all
    obtain ⟨accepts, after⟩ := each outlet devices here
    obtain ⟨answers, rest⟩ :=
      ih fun found member => (there found member).of_nature (remains outlet devices).nature
    have nature := (others.touches remains).nature
    exact ⟨List.forall_mem_cons.mpr ⟨accepts, answers⟩,
      List.forall_mem_cons.mpr ⟨after.of_nature nature, rest⟩⟩

theorem Offered.dependable (offered : Offered bytes outlets devices reached answer changed later)
    (all : ∀ outlet ∈ outlets, Dependable devices outlet) :
    ¬ answer.Lacks bytes ∧ ∀ outlet ∈ changed, Dependable later outlet := by
  have remains (outlet : Outlet) (devices : Devices) := outlet.write_remains devices bytes
  cases offered with
  | accepted turn _ accepts =>
    obtain ⟨_, after⟩ := turn.dependable (fun answer => ¬ answer.Lacks bytes) remains
      (fun _ _ dependable => dependable.write bytes) all
    exact ⟨accepts, after⟩
  | @stopped before rest _ outlet _ middle _ split turn _ stops =>
    have member : outlet ∈ outlets := by
      rw [split]
      exact List.mem_append_right _ List.mem_cons_self
    have there := (all outlet member).of_nature (turn.touches remains).nature
    exact absurd stops (there.write bytes).1

end Dependable

end Console

end MiniPascal
