import MiniPascal.Proofs.Output

/-! # Outputs that are joined

An output is nothing at all, an outlet, or several outputs that are written to in turn, nested in any way.
When two are joined, what discards everything is left out and what copies to several outputs is opened up,
so nothing gets nested. What remains is one list of outlets, and a console keeps just this list.
-/

namespace MiniPascal

/-- What output is written to. -/
inductive Sink where
  | discard
  | outlet (outlet : Outlet)
  | tee (sinks : List Sink)

namespace Sink

mutual

/-- Writes to a sink. -/
def write (bytes : Bytes) (devices : Devices) : Sink → Written × Sink × Devices
  | discard => (⟨bytes.length, none⟩, discard, devices)
  | outlet out =>
    let (written, out, devices) := out.write devices bytes
    (written, outlet out, devices)
  | tee sinks =>
    let (written, sinks, devices) := writeEach bytes devices sinks
    (written, tee sinks, devices)

/-- Writes to sinks in turn, up to the first that fails or takes in less. -/
def writeEach (bytes : Bytes) (devices : Devices) : List Sink → Written × List Sink × Devices
  | [] => (⟨bytes.length, none⟩, [], devices)
  | sink :: rest =>
    let (written, sink, devices) := sink.write bytes devices
    if written.failure.isSome then (written, sink :: rest, devices)
    else if written.count < bytes.length then (⟨written.count, some .shortWrite⟩, sink :: rest, devices)
    else
      let (written, rest, devices) := writeEach bytes devices rest
      (written, sink :: rest, devices)

end

mutual

/-- Flushes a sink. -/
def flush (devices : Devices) : Sink → Option Failure × Sink × Devices
  | discard => (none, discard, devices)
  | outlet out =>
    let (failure, out, devices) := out.flush devices
    (failure, outlet out, devices)
  | tee sinks =>
    let (failure, sinks, devices) := flushEach devices sinks
    (failure, tee sinks, devices)

/-- Flushes all sinks; the first failure counts. -/
def flushEach (devices : Devices) : List Sink → Option Failure × List Sink × Devices
  | [] => (none, [], devices)
  | sink :: rest =>
    let (failure, sink, devices) := sink.flush devices
    let (later, rest, devices) := flushEach devices rest
    (failure.or later, sink :: rest, devices)

end

/-- What a sink adds to the sinks that it is joined with. -/
def parts : Sink → List Sink
  | discard => []
  | outlet out => [outlet out]
  | tee sinks => sinks

/-- A sink that passes everything on to two others. -/
def join (first second : Sink) : Sink :=
  match first.parts ++ second.parts with
  | [] => discard
  | [sink] => sink
  | sinks => tee sinks

mutual

/-- The outlets that a sink leads to, in the order in which they are written to. -/
def outlets : Sink → List Outlet
  | discard => []
  | outlet out => [out]
  | tee sinks => outletsOf sinks

/-- The outlets that sinks lead to. -/
def outletsOf : List Sink → List Outlet
  | [] => []
  | sink :: rest => sink.outlets ++ outletsOf rest

end

theorem outletsOf_append (first second : List Sink) :
    outletsOf (first ++ second) = outletsOf first ++ outletsOf second := by
  induction first with
  | nil => rfl
  | cons sink rest ih => rw [List.cons_append, outletsOf, ih, outletsOf, List.append_assoc]

theorem outletsOf_parts (sink : Sink) : outletsOf sink.parts = sink.outlets := by
  cases sink with
  | discard | tee => simp [parts, outletsOf, outlets]
  | outlet => simp [parts, outletsOf, outlets]

/-- Joining sinks puts their outlets in a row. -/
theorem outlets_join (first second : Sink) :
    (first.join second).outlets = first.outlets ++ second.outlets := by
  rw [← outletsOf_parts first, ← outletsOf_parts second, ← outletsOf_append]
  unfold join
  rcases first.parts ++ second.parts with _ | ⟨sink, _ | ⟨other, rest⟩⟩
  · simp [outletsOf, outlets]
  · simp [outletsOf]
  · simp [outlets]

end Sink

/-! ## Writes in turn -/

namespace Written

variable {α : Type} {bytes : Bytes}

/-- What a write counts as when others are to be written to: all was taken in, or it failed. -/
def settled (bytes : Bytes) (written : Written) : Written :=
  if written.failure.isSome then written
  else if written.count < bytes.length then ⟨written.count, some .shortWrite⟩
  else ⟨bytes.length, none⟩

theorem settled_cases (bytes : Bytes) (written : Written) :
    (written.settled bytes).failure.isSome = true ∨ written.settled bytes = ⟨bytes.length, none⟩ := by
  unfold settled
  split
  · exact .inl ‹_›
  · split
    · exact .inl rfl
    · exact .inr rfl

theorem settled_of_isSome {written : Written} (fails : written.failure.isSome = true) :
    written.settled bytes = written := if_pos fails

theorem settled_all : settled bytes ⟨bytes.length, none⟩ = ⟨bytes.length, none⟩ := by
  simp [settled]

theorem settled_settled (written : Written) :
    (written.settled bytes).settled bytes = written.settled bytes := by
  obtain fails | all := written.settled_cases bytes
  · exact settled_of_isSome fails
  · rw [all, settled_all]

/-- Goes on to others after a write, unless it has failed. -/
def andThen (bytes : Bytes) (first : Written × List α × Devices) (rest : List α)
    (later : Devices → Written × List α × Devices) : Written × List α × Devices :=
  if (first.1.settled bytes).failure.isSome then (first.1.settled bytes, first.2.1 ++ rest, first.2.2)
  else ((later first.2.2).1, first.2.1 ++ (later first.2.2).2.1, (later first.2.2).2.2)

variable {first : Written × List α × Devices}

theorem andThen_of_isSome (fails : (first.1.settled bytes).failure.isSome = true) (rest : List α)
    (later : Devices → Written × List α × Devices) :
    andThen bytes first rest later = (first.1.settled bytes, first.2.1 ++ rest, first.2.2) := if_pos fails

theorem andThen_of_all (all : first.1.settled bytes = ⟨bytes.length, none⟩) (rest : List α)
    (later : Devices → Written × List α × Devices) :
    andThen bytes first rest later =
      ((later first.2.2).1, first.2.1 ++ (later first.2.2).2.1, (later first.2.2).2.2) := by
  simp [andThen, all]

theorem andThen_assoc (first : Written × List α × Devices) (more rest : List α)
    (second third : Devices → Written × List α × Devices) :
    andThen bytes (andThen bytes first more second) rest third =
      andThen bytes first (more ++ rest) fun devices => andThen bytes (second devices) rest third := by
  obtain fails | all := first.1.settled_cases bytes
  · have again : (andThen bytes first more second).1.settled bytes = first.1.settled bytes := by
      rw [andThen_of_isSome fails, settled_settled]
    rw [andThen_of_isSome (again ▸ fails), again, andThen_of_isSome fails, andThen_of_isSome fails,
      List.append_assoc]
  · rw [andThen_of_all all, andThen_of_all all]
    unfold andThen
    split <;> simp only [List.append_assoc]

/-- A write to one of several. -/
def alone (result : Written × α × Devices) : Written × List α × Devices :=
  (result.1, [result.2.1], result.2.2)

/-- How a loop goes on to others. -/
theorem andThen_alone (result : Written × α × Devices) (rest : List α)
    (later : Devices → Written × List α × Devices) :
    andThen bytes (alone result) rest later =
      if result.1.failure.isSome then (result.1, result.2.1 :: rest, result.2.2)
      else if result.1.count < bytes.length then
        (⟨result.1.count, some .shortWrite⟩, result.2.1 :: rest, result.2.2)
      else ((later result.2.2).1, result.2.1 :: (later result.2.2).2.1, (later result.2.2).2.2) := by
  obtain ⟨⟨count, _ | failure⟩, one, devices⟩ := result
  · by_cases short : count < bytes.length
    · simp [andThen, alone, settled, short]
    · simp [andThen, alone, settled, short]
  · simp [andThen, alone, settled]

end Written

open Written

variable {bytes : Bytes}

theorem Console.writeAll_cons (outlet : Outlet) (rest : List Outlet) (devices : Devices) :
    writeAll bytes devices (outlet :: rest) =
      andThen bytes (alone (outlet.write devices bytes)) rest fun devices => writeAll bytes devices rest := by
  rw [writeAll, andThen_alone]

theorem Console.writeAll_append (first second : List Outlet) (devices : Devices) :
    writeAll bytes devices (first ++ second) =
      andThen bytes (writeAll bytes devices first) second fun devices => writeAll bytes devices second := by
  induction first generalizing devices with
  | nil =>
    have all : (writeAll bytes devices []).1.settled bytes = ⟨bytes.length, none⟩ := settled_all
    rw [andThen_of_all all]
    rfl
  | cons outlet rest ih =>
    rw [List.cons_append, writeAll_cons, writeAll_cons, andThen_assoc]
    simp only [ih]

theorem Console.flushAll_append (first second : List Outlet) (devices : Devices) :
    flushAll devices (first ++ second) =
      ((flushAll devices first).1.or (flushAll (flushAll devices first).2.2 second).1,
        (flushAll devices first).2.1 ++ (flushAll (flushAll devices first).2.2 second).2.1,
        (flushAll (flushAll devices first).2.2 second).2.2) := by
  induction first generalizing devices with
  | nil => rfl
  | cons outlet rest ih => simp only [List.cons_append, flushAll_cons, ih, Option.or_assoc]

theorem Sink.writeEach_cons (sink : Sink) (rest : List Sink) (devices : Devices) :
    writeEach bytes devices (sink :: rest) =
      andThen bytes (alone (sink.write bytes devices)) rest fun devices => writeEach bytes devices rest := by
  rw [writeEach, andThen_alone]

/-! ## Nesting makes no difference -/

namespace Sink

/-- Sinks and outlets that have been written to with the same result. -/
structure Matches (bytes : Bytes) (nested : Written × List Sink × Devices)
    (flat : Written × List Outlet × Devices) : Prop where
  settled : nested.1.settled bytes = flat.1.settled bytes
  outlets : outletsOf nested.2.1 = flat.2.1
  devices : nested.2.2 = flat.2.2

theorem Matches.andThen {nested : Written × List Sink × Devices} {flat : Written × List Outlet × Devices}
    (first : Matches bytes nested flat) (rest : List Sink) {later : Devices → Written × List Sink × Devices}
    {later' : Devices → Written × List Outlet × Devices}
    (second : ∀ devices, Matches bytes (later devices) (later' devices)) :
    Matches bytes (Written.andThen bytes nested rest later)
      (Written.andThen bytes flat (outletsOf rest) later') := by
  obtain fails | all := nested.1.settled_cases bytes
  · rw [Written.andThen_of_isSome fails, Written.andThen_of_isSome (first.settled ▸ fails)]
    refine ⟨congrArg _ first.settled, ?_, first.devices⟩
    rw [outletsOf_append, first.outlets]
  · rw [Written.andThen_of_all all, Written.andThen_of_all (first.settled ▸ all), first.devices]
    obtain ⟨settled, outlets, devices⟩ := second flat.2.2
    refine ⟨settled, ?_, devices⟩
    rw [outletsOf_append, first.outlets, outlets]

mutual

/-- A write to a sink is a write to its outlets in turn. -/
theorem write_matches : ∀ (sink : Sink) (devices : Devices),
    Matches bytes (alone (sink.write bytes devices)) (Console.writeAll bytes devices sink.outlets)
  | discard, devices => by
    simp only [write, outlets]
    exact ⟨rfl, rfl, rfl⟩
  | outlet out, devices => by
    rw [outlets, Console.writeAll_cons]
    obtain fails | all := (out.write devices bytes).1.settled_cases bytes
    · rw [andThen_of_isSome fails]
      simp only [write]
      exact ⟨(settled_settled _).symm, rfl, rfl⟩
    · rw [andThen_of_all all]
      simp only [write]
      exact ⟨all.trans settled_all.symm, rfl, rfl⟩
  | tee sinks, devices => by
    obtain ⟨settled, same, devices'⟩ := writeEach_matches sinks devices
    simp only [write, outlets]
    refine ⟨settled, ?_, devices'⟩
    rw [← same]
    exact List.append_nil _

theorem writeEach_matches : ∀ (sinks : List Sink) (devices : Devices),
    Matches bytes (writeEach bytes devices sinks) (Console.writeAll bytes devices (outletsOf sinks))
  | [], devices => by
    simp only [writeEach, outletsOf]
    exact ⟨rfl, rfl, rfl⟩
  | sink :: rest, devices => by
    rw [writeEach_cons, outletsOf, Console.writeAll_append]
    exact (write_matches sink devices).andThen rest fun devices => writeEach_matches rest devices

end

mutual

/-- A flush of a sink is a flush of all its outlets. -/
theorem flush_flat : ∀ (sink : Sink) (devices : Devices),
    ((sink.flush devices).1, (sink.flush devices).2.1.outlets, (sink.flush devices).2.2) =
      Console.flushAll devices sink.outlets
  | discard, devices => by simp only [flush, outlets, Console.flushAll]
  | outlet out, devices => by
    simp only [flush, outlets, Console.flushAll_cons]
    simp only [Console.flushAll, Option.or_none]
  | tee sinks, devices => by
    simp only [flush, outlets]
    exact flushEach_flat sinks devices

theorem flushEach_flat : ∀ (sinks : List Sink) (devices : Devices),
    ((flushEach devices sinks).1, outletsOf (flushEach devices sinks).2.1, (flushEach devices sinks).2.2) =
      Console.flushAll devices (outletsOf sinks)
  | [], devices => by simp only [flushEach, outletsOf, Console.flushAll]
  | sink :: rest, devices => by
    rw [outletsOf, Console.flushAll_append, ← flush_flat sink devices]
    simp only [flushEach, outletsOf, ← flushEach_flat rest]

end

/-- A write to joined sinks is a write to the one and then to the other. -/
theorem write_join (first second : Sink) (devices : Devices) :
    Matches bytes (alone ((first.join second).write bytes devices))
      (andThen bytes (Console.writeAll bytes devices first.outlets) second.outlets fun devices =>
        Console.writeAll bytes devices second.outlets) := by
  rw [← Console.writeAll_append, ← outlets_join]
  exact write_matches (first.join second) devices

end Sink

/-! ## Consoles -/

/-- The sink that leads to some outlets, without any nesting. -/
def Sink.ofOutlets : List Outlet → Sink
  | [] => discard
  | [out] => outlet out
  | outlets => tee (outlets.map outlet)

theorem Sink.parts_ofOutlets (outlets : List Outlet) : (ofOutlets outlets).parts = outlets.map outlet := by
  rcases outlets with _ | ⟨out, _ | ⟨other, rest⟩⟩ <;> rfl

/-- Nothing gets nested when sinks are joined. -/
theorem Sink.join_ofOutlets (first second : List Outlet) :
    (ofOutlets first).join (ofOutlets second) = ofOutlets (first ++ second) := by
  unfold join
  rw [parts_ofOutlets, parts_ofOutlets, ← List.map_append]
  rcases first ++ second with _ | ⟨out, _ | ⟨other, rest⟩⟩ <;> rfl

theorem Sink.writeEach_map (outlets : List Outlet) (devices : Devices) :
    writeEach bytes devices (outlets.map outlet) =
      ((Console.writeAll bytes devices outlets).1, (Console.writeAll bytes devices outlets).2.1.map outlet,
        (Console.writeAll bytes devices outlets).2.2) := by
  induction outlets generalizing devices with
  | nil => rfl
  | cons out rest ih =>
    rw [List.map_cons, writeEach, Console.writeAll]
    simp only [write, ih]
    split
    · rfl
    · split <;> rfl

theorem Sink.flushEach_map (outlets : List Outlet) (devices : Devices) :
    flushEach devices (outlets.map outlet) =
      ((Console.flushAll devices outlets).1, (Console.flushAll devices outlets).2.1.map outlet,
        (Console.flushAll devices outlets).2.2) := by
  induction outlets generalizing devices with
  | nil => rfl
  | cons out rest ih => simp only [List.map_cons, flushEach, flush, ih, Console.flushAll_cons]

theorem Sink.ofOutlets_of_many {outlets : List Outlet} (many : 1 < outlets.length) :
    ofOutlets outlets = tee (outlets.map outlet) := by
  rcases outlets with _ | ⟨out, _ | ⟨other, rest⟩⟩
  · cases many
  · simp at many
  · rfl

namespace Console

theorem length_writeAll (outlets : List Outlet) (devices : Devices) :
    (writeAll bytes devices outlets).2.1.length = outlets.length := by
  induction outlets generalizing devices with
  | nil => rfl
  | cons outlet rest ih =>
    rw [writeAll]
    dsimp only
    split
    · rfl
    · split
      · rfl
      · exact congrArg Nat.succ (ih _)

theorem length_flushAll (outlets : List Outlet) (devices : Devices) :
    (flushAll devices outlets).2.1.length = outlets.length := by
  induction outlets generalizing devices with
  | nil => rfl
  | cons outlet rest ih => exact congrArg Nat.succ (ih _)

/-- What a console writes to. -/
def sink (console : Console) : Sink := .ofOutlets console.outlets

/-- A console writes like its sink. -/
theorem write_sink (console : Console) (bytes : Bytes) :
    console.sink.write bytes console.devices =
      ((console.write bytes).1, (console.write bytes).2.sink, (console.write bytes).2.devices) := by
  obtain ⟨_ | ⟨outlet, _ | ⟨second, rest⟩⟩, devices⟩ := console
  · rfl
  · rfl
  · have many : 1 < (writeAll bytes devices (outlet :: second :: rest)).2.1.length := by
      rw [length_writeAll]
      simp
    rw [write_of_many]
    change Sink.write bytes devices (.tee ((outlet :: second :: rest).map .outlet)) = _
    rw [Sink.write, Sink.writeEach_map, sink, Sink.ofOutlets_of_many many]

/-- A console flushes like its sink. -/
theorem flush_sink (console : Console) :
    console.sink.flush console.devices =
      (console.flush.1, console.flush.2.sink, console.flush.2.devices) := by
  obtain ⟨_ | ⟨outlet, _ | ⟨second, rest⟩⟩, devices⟩ := console
  · rfl
  · change ((outlet.flush devices).1, _, _) = ((outlet.flush devices).1.or none, _, _)
    rw [Option.or_none]
    rfl
  · have many : 1 < (flushAll devices (outlet :: second :: rest)).2.1.length := by
      rw [length_flushAll]
      simp
    change Sink.flush devices (.tee ((outlet :: second :: rest).map .outlet)) =
      (_, .ofOutlets (flushAll devices (outlet :: second :: rest)).2.1, _)
    rw [Sink.flush, Sink.flushEach_map, Sink.ofOutlets_of_many many]
    rfl

/-- One more target is joined to what is there. -/
theorem sink_tee (console : Console) (target : Target) :
    (console.tee target).sink = console.sink.join (.ofOutlets (target.outlets console.devices)) :=
  (Sink.join_ofOutlets ..).symm

end Console

end MiniPascal
