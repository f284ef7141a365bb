import MiniPascal.Demo
import MiniPascal.Proofs.Simulation.ForLoops
import Mathlib.Algebra.BigOperators.Intervals
import Mathlib.Data.Nat.Factorial.Basic

/-! # The programs built in

Both programs count from 1 up to a number and gather the values of the counter, one in a product and one
in a sum. They are one loop with different cells and operations. The loop ends in one of three ways: the
distance to the number does not fit in a word, what is gathered does not fit, or the result is printed.
A run leaves the quads, the number and the constants as they are, so every further run of the same
machine does the same, whatever the other cells hold.
-/

namespace MiniPascal

open Syntax

namespace Machine

variable {m next last after : Machine} {n k fuel : Nat}

/-! ## Quiet stretches of a run -/

/-- A machine comes to another state by `n` steps that write nothing. -/
inductive Drifts : Nat → Machine → Machine → Prop
  | refl (m : Machine) : Drifts 0 m m
  | head {n : Nat} {m next last : Machine} (steps : m.Steps next) (quiet : m.utterance = [])
      (later : Drifts n next last) : Drifts (n + 1) m last

namespace Drifts

theorem single (steps : m.Steps next) (quiet : m.utterance = []) : Drifts 1 m next :=
  .head steps quiet (.refl next)

theorem trans (first : Drifts n m next) (second : Drifts k next last) : Drifts (n + k) m last := by
  induction first with
  | refl =>
    rw [Nat.zero_add]
    exact second
  | @head n m middle next steps quiet _ ih =>
    rw [show n + 1 + k = n + k + 1 by omega]
    exact .head steps quiet (ih second)

theorem reaches (drifts : Drifts n m last) : ReachesIn n m last := by
  induction drifts with
  | refl m => exact .refl m
  | head steps _ _ ih => exact .head steps ih

theorem transcript (drifts : Drifts n m last) (done fuel : Nat) :
    m.transcript .background done (fuel + n) = last.transcript .background (done + n) fuel := by
  induction drifts generalizing done with
  | refl => rfl
  | head steps quiet _ ih =>
    rw [← Nat.add_assoc, transcript_of_steps steps rfl, quiet, ← Nat.add_assoc, Nat.add_right_comm]
    exact ih (done + 1)

end Drifts

theorem Drifts.steady (drifts : Drifts n m last) (steady : m.console.Steady) : last.console.Steady := by
  induction drifts with
  | refl => exact steady
  | head steps _ _ ih => exact ih ((steps.passes steady.frank).steady steady)

/-- A run that writes nothing before its last quad. -/
theorem run_of_drift {halt : Halt} (drifts : Drifts n m.rewind last) (inside : last.Inside)
    (halts : last.Halts halt after) (enough : n < fuel) :
    m.run .background fuel = (.finished (after.runFailure? halt), after) ∧
      m.output .background fuel = last.utterance := by
  refine ⟨run_of_halts drifts.reaches inside halts enough, ?_⟩
  obtain ⟨spare, rfl⟩ : ∃ spare, fuel = spare + 1 + n := ⟨fuel - n - 1, by omega⟩
  rw [output, drifts.transcript, transcript_of_ends (.halt inside halts), lastWords, if_pos inside]

/-- If the console is steady, its devices have received all that a run writes, after what they were sent
before. -/
def Delivered (m : Machine) (fuel : Nat) : Prop :=
  m.console.Steady → ∀ number ∈ m.console.numbers,
    (m.run .background fuel).2.console.devices.received number =
      m.console.devices.received number ++ m.console.pending number ++ m.output .background fuel

theorem delivered_of_halts {cause : Option Failure} (reaches : ReachesIn n m.rewind last)
    (inside : last.Inside) (halts : last.Halts (.stopped cause) after) (enough : n < fuel) :
    m.Delivered fuel := by
  intro steady number member
  have leads := runWithin_delivers .background 0 fuel m.rewind steady
  have ran : Exec.runWithin .background 0 fuel m.rewind = .error (.stopped cause) after := by
    obtain ⟨spare, rfl⟩ : ∃ spare, fuel = spare + 1 + n := ⟨fuel - n - 1, by omega⟩
    rw [reaches.runWithin, runWithin_of_halts inside halts]
  have delivers := Leads.error leads ran
  have sent := delivers.passes.sent number member
  rw [Console.sent, (delivers.drained trivial).pending number, List.append_nil] at sent
  rw [run_of_halts reaches inside halts enough]
  exact sent

theorem run_passes (steady : m.console.Steady) (fuel : Nat) :
    Console.Passes (m.output .background fuel) m.console (m.run .background fuel).2.console := by
  have leads := runWithin_delivers .background 0 fuel m.rewind steady
  unfold run
  cases ran : Exec.runWithin .background 0 fuel m.rewind with
  | ok _ after => exact (Leads.ok leads ran).passes
  | error halt after =>
    have passes := (Leads.error leads ran).passes
    cases halt with
    | stopped | crashed | outOfFuel => exact passes

theorem run_stepLimit (m : Machine) (fuel : Nat) : (m.run .background fuel).2.stepLimit = m.stepLimit := by
  have at_last {last : Machine} (reaches : m.rewind.Reaches last) : last.stepLimit = m.stepLimit :=
    Reaches.keeps reaches (P := fun next => next.stepLimit = m.stepLimit)
      (fun _ _ steps same => steps.stepLimit.trans same) rfl
  have comes := m.run_comes .background fuel
  generalize m.run .background fuel = result at comes
  cases comes with
  | outOfFuel goes => exact at_last goes.reaches
  | past goes ends =>
    cases ends
    have same := at_last goes.reaches
    exact same
  | halted goes ends =>
    rw [← at_last goes.reaches]
    cases ends with
    | halt _ halts => exact halts.sameState.stepLimit
    | interrupted _ _ called => cases called
    | unflushed => exact (sameState_closing _ _).stepLimit

/-- A machine after some runs that are not interrupted. -/
def afterRuns (fuel : Nat) : Nat → Machine → Machine
  | 0, m => m
  | runs + 1, m => afterRuns fuel runs (m.run .background fuel).2

theorem afterRuns_steady (steady : m.console.Steady) (fuel runs : Nat) :
    (m.afterRuns fuel runs).console.Steady ∧ (m.afterRuns fuel runs).console.numbers = m.console.numbers := by
  induction runs generalizing m with
  | zero => exact ⟨steady, rfl⟩
  | succ runs ih =>
    have passes := run_passes steady fuel
    obtain ⟨steady', same⟩ := ih (passes.steady steady)
    exact ⟨steady', same.trans passes.numbers⟩

end Machine

/-! ## Single quads -/

/-- The operations that write something. -/
def Opcode.utters (op : Opcode) : Bool := op = .print || op = .read

theorem utters_operator (op : Operator) : op.opcode.utters = false := by
  cases op <;> rfl

namespace Machine.At

variable {m : Machine} {quads : List Quad} {place i j : Nat} {q : Quad}

theorem inside (here : m.At quads place) (quad : quads[place]? = some q) : m.Inside := by
  rw [Inside, here.pc, ← QuadTable.length_code, here.quads]
  exact (List.getElem?_eq_some_iff.mp quad).1

theorem quiet (here : m.At quads place) (quad : quads[place]? = some q) (mute : q.op.utters = false) :
    m.utterance = [] := by
  obtain ⟨within, intent⟩ := here.intent quad
  rw [utterance, if_neg within, intent]
  cases acts : q.action m.program.symbols with
  | error => rfl
  | ok action =>
    cases Quad.does_of_action acts with
    | print is | read is =>
      rw [is] at mute
      cases mute
    | arithmetic | mov | jump | taken | skipped | through | stop => rfl

theorem jump (here : m.At quads place) {target : Nat} (quad : quads[place]? = some ⟨.jmp, 0, 0, target⟩) :
    ∃ next, m.Steps next ∧ next.At quads target ∧ next.program = m.program := by
  obtain ⟨within, intent⟩ := here.intent quad
  exact ⟨_, .goto within intent, ⟨rfl, here.ready.quads, here.ready.free⟩, m.program_ready⟩

/-- An operation on integers whose exact result does not fit in a word. -/
theorem overflow (here : m.At quads place) (op : Operator) {c : Int}
    (quad : quads[place]? = some ⟨op.opcode, i, j, c⟩) {a b : Int64} {x : Int}
    (left : m.program.symbols.Holds i (.int a)) (right : m.program.symbols.Holds j (.int b))
    (exact : op.exactly a.toInt b.toInt = .ok x) (large : word? x = none) :
    ∃ after, m.Halts (.stopped (some (.fault place ⟨op.opcode, i, j, c⟩ .overflow))) after := by
  obtain ⟨within, intent⟩ := here.intent quad
  have does := Quad.action_of_exactly left right exact c
  rw [large] at does
  have halts : m.Halts (.stopped (some (m.ready.faultBy .overflow))) _ :=
    .trouble within (intent.trans does)
  rw [faultBy, current_ready, quad_ready, here.fetches quad, here.pc] at halts
  exact ⟨_, halts⟩

/-- A value is printed, unless a device fails. -/
theorem prints (here : m.At quads place) {value : Value} (quad : quads[place]? = some ⟨.print, 0, 0, i⟩)
    (holds : m.program.symbols.Holds i value) :
    m.utterance = value.toText.line.bytes ∧
      ((∃ next, m.Steps next ∧ next.At quads (place + 1)) ∨
        ¬ m.console.Steady ∧ ∃ cause after, m.Halts (.stopped cause) after) := by
  obtain ⟨within, intent⟩ := here.intent quad
  have does : m.intent = .ok (.print value) := by
    rw [intent]
    change (Outcome.ofAccess (m.program.symbols.value i) >>= _ : Outcome Action) = _
    rw [holds.value]
    rfl
  constructor
  · simp only [utterance, if_neg within, does]
  · cases written : (m.ready.console.write value.toText.line.bytes).1.failure with
    | none =>
      exact .inl ⟨_, .print within does written, here.ready.pc, here.ready.quads, here.ready.free⟩
    | some failure =>
      refine .inr ⟨fun steady => ?_, _, _, .unshown within does written⟩
      rw [((ready_passes steady.fluent).steady steady).write] at written
      cases written

theorem stops (here : m.At quads place) (quad : quads[place]? = some ⟨.stop, 0, 0, 0⟩) :
    ∃ cause after, m.Halts (.stopped cause) after ∧ (m.console.Steady → cause = none) := by
  obtain ⟨within, intent⟩ := here.intent quad
  refine ⟨_, _, .stop within intent, fun steady => ?_⟩
  exact ((ready_passes steady.fluent).steady steady).flush

/-- Two cells get the values of two others. -/
theorem copies (here : m.At quads place) {c d : Nat} {x y : Value}
    (first : quads[place]? = some ⟨.mov, i, 0, c⟩) (second : quads[place + 1]? = some ⟨.mov, j, 0, d⟩)
    (left : m.program.symbols.Holds i x) (right : m.program.symbols.Holds j y)
    (kinds : m.program.symbols.kindAt c = some x.kind ∧ m.program.symbols.kindAt d = some y.kind)
    (apart : c ≠ j ∧ d ≠ c) :
    ∃ next, m.Drifts 2 next ∧ next.At quads (place + 2) ∧ next.program.symbols.Holds c x ∧
      next.program.symbols.Holds d y := by
  obtain ⟨middle, puts, there⟩ := here.copy first left kinds.1
  have kind := (puts.steps.program.2.kindAt d).trans kinds.2
  obtain ⟨next, puts', there'⟩ := there.copy second (puts.others apart.1 right) kind
  have drifts : middle.Drifts 1 next := .single puts'.steps (there.quiet second rfl)
  exact ⟨next, .head puts.steps (here.quiet first rfl) drifts, there', puts'.others apart.2 puts.holds,
    puts'.holds⟩

end Machine.At

/-! ## The loop of both programs -/

/-- A loop that counts in cell 1 from 1 up to the number in cell 0, and gathers the values of the counter
in cell 2. -/
structure Gathering where
  /-- The operation that gathers. -/
  op : Operator
  /-- What the first values of the counter come to. -/
  total : Nat → Nat
  /-- The cell of the first result. -/
  first : Nat
  /-- The cell of the step of the counter. -/
  unit : Nat
  /-- The cell of the distance to the number. -/
  distance : Nat
  /-- The quads that give the counter and the result their first values, in either order. -/
  entry : List Quad
  gathers : ∀ k, op.exactly (total k) (k + 1 : Nat) = .ok (total (k + 1) : Nat)
  grows : ∀ k, total k ≤ total (k + 1)
  exceeds : ∃ k ≤ 2 ^ 32, 2 ^ 63 ≤ total k
  apart : 2 < first ∧ 2 < unit ∧ 2 < distance ∧ distance ≠ first ∧ distance ≠ unit
  enters : entry = [⟨.mov, unit, 0, 1⟩, ⟨.mov, first, 0, 2⟩] ∨
    entry = [⟨.mov, first, 0, 2⟩, ⟨.mov, unit, 0, 1⟩]

namespace Gathering

/-- The quads behind the entry, from place 2 on. -/
def rounds (g : Gathering) : List Quad :=
  [⟨.sub, 1, 0, g.distance⟩, ⟨.jp, g.distance, 0, 7⟩, ⟨g.op.opcode, 2, 1, 2⟩, ⟨.add, 1, g.unit, 1⟩,
    ⟨.jmp, 0, 0, 2⟩, ⟨.print, 0, 0, 2⟩, ⟨.stop, 0, 0, 0⟩]

def quads (g : Gathering) : List Quad := g.entry ++ g.rounds

/-- A program is the loop up to `n`, and the cells that only the loop sets hold any integers. -/
structure Loaded (g : Gathering) (n : Int64) (program : Program) : Prop where
  quads : program.quads.code = g.quads
  number : program.symbols.Holds 0 (.int n)
  unit : program.symbols.Holds g.unit (.int 1)
  first : ∃ w : Int64, w.toInt = g.total 0 ∧ program.symbols.Holds g.first (.int w)
  counter : program.symbols.kindAt 1 = some .integer
  result : program.symbols.kindAt 2 = some .integer
  distance : program.symbols.kindAt g.distance = some .integer

/-- A machine stands at a place of the loop, with a counter and a result. -/
structure Stage (g : Gathering) (n : Int64) (place : Nat) (i w : Int64) (m : Machine) : Prop where
  standing : m.At g.quads place
  loaded : g.Loaded n m.program
  counter : m.program.symbols.Holds 1 (.int i)
  result : m.program.symbols.Holds 2 (.int w)

variable {g : Gathering} {n i w : Int64} {place k fuel : Nat} {m next after : Machine}

theorem length_entry (g : Gathering) : g.entry.length = 2 := by
  rcases g.enters with entry | entry <;> rw [entry] <;> rfl

theorem quad_of_entry {q : Quad} (entered : g.entry[k]? = some q) : g.quads[k]? = some q := by
  rw [quads, List.getElem?_append_left (List.getElem?_eq_some_iff.mp entered).1]
  exact entered

theorem quad_of_round {q : Quad} (round : g.rounds[k]? = some q) : g.quads[k + 2]? = some q := by
  have behind : g.entry.length ≤ k + 2 := by
    rw [g.length_entry]
    omega
  rw [quads, List.getElem?_append_right behind, g.length_entry, Nat.add_sub_cancel]
  exact round

/-- The loop stores into three cells only. -/
theorem stores_mem {q : Quad} (member : q ∈ g.quads) (stores : q.op.stores = true) :
    q.c = 1 ∨ q.c = 2 ∨ q.c = g.distance := by
  rcases List.mem_append.mp member with entered | round
  · rcases g.enters with entry | entry
    · rw [entry] at entered
      rcases List.mem_pair.mp entered with rfl | rfl
      · exact .inl rfl
      · exact .inr (.inl rfl)
    · rw [entry] at entered
      rcases List.mem_pair.mp entered with rfl | rfl
      · exact .inr (.inl rfl)
      · exact .inl rfl
  · simp only [rounds, List.mem_cons, List.not_mem_nil, or_false] at round
    rcases round with rfl | rfl | rfl | rfl | rfl | rfl | rfl
    · exact .inr (.inr rfl)
    · cases stores
    · exact .inr (.inl rfl)
    · exact .inl rfl
    · cases stores
    · cases stores
    · cases stores

theorem Loaded.step (loaded : g.Loaded n m.program) (steps : m.Steps after) :
    g.Loaded n after.program := by
  obtain ⟨quads, alike⟩ := steps.program
  have member : m.next ∈ g.quads := by
    rw [← loaded.quads]
    exact List.mem_of_getElem? steps.started.code
  have keeps {j : Nat} {value : Value} (spared : j = 0 ∨ j = g.first ∨ j = g.unit)
      (holds : m.program.symbols.Holds j value) : after.program.symbols.Holds j value := by
    refine steps.changes.holds (fun stores is => ?_) holds
    obtain ⟨first, unit, distance, apart, apart'⟩ := g.apart
    rcases stores_mem member stores with one | two | far <;> omega
  obtain ⟨w, same, first⟩ := loaded.first
  constructor
  · rw [quads, loaded.quads]
  · exact keeps (.inl rfl) loaded.number
  · exact keeps (.inr (.inr rfl)) loaded.unit
  · exact ⟨w, same, keeps (.inr (.inl rfl)) first⟩
  · exact (alike.kindAt 1).trans loaded.counter
  · exact (alike.kindAt 2).trans loaded.result
  · exact (alike.kindAt _).trans loaded.distance

theorem Loaded.drift {steps : Nat} (loaded : g.Loaded n m.program) (drifts : m.Drifts steps next) :
    g.Loaded n next.program := by
  induction drifts with
  | refl => exact loaded
  | head steps _ _ ih => exact ih (loaded.step steps)

/-- The counter and the result get their first values. -/
theorem Loaded.enter (loaded : g.Loaded n m.program) (here : m.At g.quads 0) :
    ∃ next, ∃ w : Int64, m.Drifts 2 next ∧ w.toInt = g.total 0 ∧ g.Stage n 2 1 w next := by
  obtain ⟨w, same, first⟩ := loaded.first
  obtain ⟨above, above', _⟩ := g.apart
  rcases g.enters with entry | entry
  · have one : g.quads[0]? = some ⟨.mov, g.unit, 0, (1 : Nat)⟩ :=
      quad_of_entry (by rw [entry]; rfl)
    have two : g.quads[1]? = some ⟨.mov, g.first, 0, (2 : Nat)⟩ :=
      quad_of_entry (by rw [entry]; rfl)
    obtain ⟨next, drifts, there, counter, result⟩ :=
      here.copies one two loaded.unit first ⟨loaded.counter, loaded.result⟩ (by omega)
    exact ⟨next, w, drifts, same, there, loaded.drift drifts, counter, result⟩
  · have one : g.quads[0]? = some ⟨.mov, g.first, 0, (2 : Nat)⟩ :=
      quad_of_entry (by rw [entry]; rfl)
    have two : g.quads[1]? = some ⟨.mov, g.unit, 0, (1 : Nat)⟩ :=
      quad_of_entry (by rw [entry]; rfl)
    obtain ⟨next, drifts, there, result, counter⟩ :=
      here.copies one two first loaded.unit ⟨loaded.result, loaded.counter⟩ (by omega)
    exact ⟨next, w, drifts, same, there, loaded.drift drifts, counter, result⟩

theorem measure_quad (g : Gathering) :
    g.quads[2]? = some ⟨.sub, (1 : Nat), (0 : Nat), g.distance⟩ := quad_of_round (k := 0) rfl

theorem gather_quad (g : Gathering) :
    g.quads[4]? = some ⟨g.op.opcode, (2 : Nat), (1 : Nat), (2 : Nat)⟩ := quad_of_round (k := 2) rfl

/-- The loop goes on unless the counter is past the number. -/
theorem Stage.measure (stage : g.Stage n 2 i w m) {d : Int64} (far : d.toInt = i.toInt - n.toInt) :
    ∃ next, m.Drifts 2 next ∧ g.Stage n (if n.toInt < i.toInt then 7 else 4) i w next := by
  have test : g.quads[3]? = some ⟨.jp, g.distance, 0, (7 : Nat)⟩ := quad_of_round (k := 1) rfl
  obtain ⟨middle, puts, there⟩ := stage.standing.calculate .sub g.measure_quad stage.counter
    stage.loaded.number (congrArg _ far.symm) stage.loaded.distance
  obtain ⟨next, steps, there', same⟩ := there.branch test rfl puts.holds (.inl rfl)
  have drifts : m.Drifts 2 next := .head puts.steps (stage.standing.quiet g.measure_quad rfl)
    (.single steps (there.quiet test rfl))
  have taken : Opcode.jp.taken (Value.int d).signum = decide (n.toInt < i.toInt) := by
    change decide (0 < d.toInt.sign) = _
    rw [far, decide_eq_decide, Int.sign_pos_iff]
    omega
  rw [taken] at there'
  obtain ⟨_, _, above, _⟩ := g.apart
  refine ⟨next, drifts, ?_, stage.loaded.drift drifts, ?_, ?_⟩
  · by_cases past : n.toInt < i.toInt
    · rw [if_pos past]
      rwa [if_pos (decide_eq_true past)] at there'
    · rw [if_neg past]
      rwa [if_neg (by simpa using past)] at there'
  · rw [same]
    exact puts.others (by omega) stage.counter
  · rw [same]
    exact puts.others (by omega) stage.result

/-- A value of the counter is gathered, and the counter goes on. -/
theorem Stage.gather (stage : g.Stage n 4 i w m) {i' w' : Int64}
    (exact : g.op.exactly w.toInt i.toInt = .ok w'.toInt) (on : i'.toInt = i.toInt + 1) :
    ∃ next, m.Drifts 3 next ∧ g.Stage n 2 i' w' next := by
  have count : g.quads[5]? = some ⟨.add, (1 : Nat), g.unit, (1 : Nat)⟩ := quad_of_round (k := 3) rfl
  have back : g.quads[6]? = some ⟨.jmp, 0, 0, (2 : Nat)⟩ := quad_of_round (k := 4) rfl
  obtain ⟨first, puts, there⟩ := stage.standing.calculate g.op g.gather_quad stage.result stage.counter
    exact stage.loaded.result
  have loaded := stage.loaded.step puts.steps
  obtain ⟨second, puts', there'⟩ := there.calculate .add count (puts.others (by decide) stage.counter)
    loaded.unit (congrArg _ on.symm) loaded.counter
  obtain ⟨next, steps, there'', same⟩ := there'.jump back
  have quiet := stage.standing.quiet g.gather_quad (utters_operator g.op)
  have drifts : m.Drifts 3 next := .head puts.steps quiet
    (.head puts'.steps (there.quiet count rfl) (.single steps (there'.quiet back rfl)))
  refine ⟨next, drifts, there'', stage.loaded.drift drifts, ?_, ?_⟩
  · rw [same]
    exact puts'.holds
  · rw [same]
    exact puts'.others (by decide) puts.holds

/-! ## Rounds -/

theorem total_le (g : Gathering) {j : Nat} (le : j ≤ k) : g.total j ≤ g.total k :=
  monotone_nat_of_le_succ g.grows le

/-- What fits in a word has been gathered from few values. -/
theorem lt_of_fits (g : Gathering) (fits : g.total k < 2 ^ 63) : k < 2 ^ 32 := by
  obtain ⟨j, few, large⟩ := g.exceeds
  by_contra many
  have := g.total_le (Nat.le_trans few (Nat.not_lt.mp many))
  omega

/-- A machine is about to start a round after `k` others. -/
def Round (g : Gathering) (n : Int64) (k : Nat) (m : Machine) : Prop :=
  ∃ i w : Int64, i.toInt = k + 1 ∧ w.toInt = g.total k ∧ g.Stage n 2 i w m

/-- A machine is about to gather a value that does not fit in a word with the others. -/
def Stuck (g : Gathering) (n : Int64) (m : Machine) : Prop :=
  ∃ (i w : Int64) (x : Int), g.Stage n 4 i w m ∧ g.op.exactly w.toInt i.toInt = .ok x ∧ word? x = none

theorem Round.fits (round : g.Round n k m) : g.total k < 2 ^ 63 := by
  obtain ⟨_, w, _, result, _⟩ := round
  have := w.toInt_lt
  omega

/-- A round gathers one value, if there is room for it. -/
theorem Round.step (round : g.Round n k m) (more : k < n.toInt.toNat) :
    (∃ next, m.Drifts 5 next ∧ g.Round n (k + 1) next) ∨
      2 ^ 63 ≤ g.total (k + 1) ∧ ∃ last, m.Drifts 2 last ∧ g.Stuck n last := by
  obtain ⟨i, w, counter, result, stage⟩ := round
  have upper := n.toInt_lt
  -- the counter is between 1 and the number, so the distance fits
  obtain ⟨d, far⟩ : ∃ d : Int64, d.toInt = i.toInt - n.toInt := exists_word (by omega) (by omega)
  obtain ⟨tested, drifts, stage⟩ := stage.measure far
  rw [if_neg (by omega)] at stage
  have exact : g.op.exactly w.toInt i.toInt = .ok (g.total (k + 1) : Int) := by
    rw [result, counter]
    exact g.gathers k
  cases fits : word? (g.total (k + 1)) with
  | none =>
    have large := word_eq_none.mp fits
    exact .inr ⟨by omega, tested, drifts, i, w, _, stage, exact, fits⟩
  | some w' =>
    rw [word_eq_some] at fits
    have few : k + 1 < 2 ^ 32 := by
      apply g.lt_of_fits
      have := w'.toInt_lt
      omega
    -- a counter that can go no further would have overflowed the result before
    obtain ⟨i', on⟩ : ∃ i' : Int64, i'.toInt = i.toInt + 1 := exists_word (by omega) (by omega)
    rw [← fits] at exact
    obtain ⟨next, drifts', stage'⟩ := stage.gather exact on
    exact .inl ⟨next, drifts.trans drifts', i', w', by omega, fits, stage'⟩

/-- The rounds go on up to the number, or to the first value that does not fit. -/
theorem Round.rounds (start : g.Round n 0 m) : ∀ k, k ≤ n.toInt.toNat →
    (∃ next, m.Drifts (5 * k) next ∧ g.Round n k next) ∨
      2 ^ 63 ≤ g.total k ∧ ∃ j last, j < 2 ^ 32 ∧ m.Drifts (5 * j + 2) last ∧ g.Stuck n last := by
  intro k
  induction k with
  | zero => exact fun _ => .inl ⟨m, .refl m, start⟩
  | succ k ih =>
    intro more
    rcases ih (by omega) with ⟨next, drifts, round⟩ | ⟨large, stuck⟩
    · rcases round.step more with ⟨last, drifts', round'⟩ | ⟨large, last, drifts', stuck⟩
      · exact .inl ⟨last, drifts.trans drifts', round'⟩
      · exact .inr ⟨large, k, last, g.lt_of_fits round.fits, drifts.trans drifts', stuck⟩
    · exact .inr ⟨Nat.le_trans large (g.grows k), stuck⟩

end Gathering

/-! ## Runs -/

/-- A run computes a number: it prints the number in a line of its own and stops, or it ends with the
failure `large` and prints nothing if the number does not fit in a word. It always ends with the failure
`far` if `n` is too far below 1 for a word. -/
inductive Machine.Computes (m : Machine) (fuel : Nat) (n : Int64) (number : Nat) (far large : Failure) :
    Prop
  | tooFar (distant : word? (1 - n.toInt) = none)
      (ends : (m.run .background fuel).1 = .finished (some far)) (silent : m.output .background fuel = [])
  | tooLarge (near : word? (1 - n.toInt) ≠ none) (overflows : word? number = none)
      (ends : (m.run .background fuel).1 = .finished (some large)) (silent : m.output .background fuel = [])
  | prints (near : word? (1 - n.toInt) ≠ none) (fits : word? number ≠ none)
      (line : m.output .background fuel = (Text.ofInt number).line.bytes)
      (ends : m.console.Steady → (m.run .background fuel).1 = .finished none)

namespace Gathering

variable {g : Gathering} {n i w : Int64} {k steps fuel : Nat} {m last : Machine}

/-- A run that has printed nothing ends at an operation that overflows. -/
theorem overflows {q : Quad} {place : Nat} (drifts : m.rewind.Drifts steps last)
    (here : last.At g.quads place) (quad : g.quads[place]? = some q) (mute : q.op.utters = false)
    (halts : ∃ after, last.Halts (.stopped (some (.fault place q .overflow))) after)
    (enough : steps < fuel) :
    (m.run .background fuel).1 = .finished (some (.fault place q .overflow)) ∧ m.output .background fuel = [] ∧
      m.Delivered fuel := by
  obtain ⟨after, halts⟩ := halts
  have inside := here.inside quad
  obtain ⟨ran, output⟩ := Machine.run_of_drift drifts inside halts enough
  refine ⟨?_, output.trans (here.quiet quad mute),
    Machine.delivered_of_halts drifts.reaches inside halts enough⟩
  rw [ran, Machine.runFailure_stopped]
  rfl

/-- A run that has printed nothing ends by printing the result. -/
theorem Stage.prints (stage : g.Stage n 7 i w last) (drifts : m.rewind.Drifts steps last)
    (enough : steps + 1 < fuel) :
    m.output .background fuel = (Text.ofInt w.toInt).line.bytes ∧
      (m.console.Steady → (m.run .background fuel).1 = .finished none) ∧ m.Delivered fuel := by
  have print : g.quads[7]? = some ⟨.print, 0, 0, (2 : Nat)⟩ := quad_of_round (k := 5) rfl
  have stop : g.quads[8]? = some ⟨.stop, 0, 0, 0⟩ := quad_of_round (k := 6) rfl
  have inside := stage.standing.inside print
  have enough' : steps < fuel := by omega
  obtain ⟨line, goes⟩ := stage.standing.prints print stage.result
  rcases goes with ⟨next, prints, there⟩ | ⟨unsteady, _, _, halts⟩
  · obtain ⟨cause, after, halts, clear⟩ := there.stops stop
    have inside' := there.inside stop
    have reaches := drifts.reaches.tail prints
    refine ⟨?_, fun steady => ?_, Machine.delivered_of_halts reaches inside' halts enough⟩
    · obtain ⟨spare, rfl⟩ : ∃ spare, fuel = spare + 1 + 1 + steps := ⟨fuel - steps - 2, by omega⟩
      rw [Machine.output, drifts.transcript, Machine.transcript_of_steps prints rfl,
        Machine.transcript_of_ends (.halt inside' halts), Machine.lastWords, if_pos inside',
        there.quiet stop rfl, List.append_nil, line]
      rfl
    · have steady' := drifts.steady steady
      rw [Machine.run_of_halts reaches inside' halts enough, clear ((prints.passes steady'.frank).steady steady')]
      rfl
  · obtain ⟨_, output⟩ := Machine.run_of_drift drifts inside halts enough'
    exact ⟨output.trans line, fun steady => absurd (drifts.steady steady) unsteady,
      Machine.delivered_of_halts drifts.reaches inside halts enough'⟩

/-- A run of the loop computes what all values up to the number come to. -/
theorem Loaded.computes (loaded : g.Loaded n m.program) (free : m.stepLimit ≤ 0)
    (long : Machine.horizon ≤ fuel) :
    m.Computes fuel n (g.total n.toInt.toNat) (.fault 2 ⟨.sub, 1, 0, g.distance⟩ .overflow)
      (.fault 4 ⟨g.op.opcode, 2, 1, 2⟩ .overflow) ∧ m.Delivered fuel := by
  have plenty : 2 ^ 62 ≤ fuel := long
  obtain ⟨entered, w, drifts, result, stage⟩ := loaded.enter (m := m.rewind) ⟨rfl, loaded.quads, free⟩
  cases near : word? (1 - n.toInt) with
  | none =>
    have enough : 2 < fuel := by omega
    have halts := stage.standing.overflow .sub g.measure_quad stage.counter stage.loaded.number rfl near
    obtain ⟨ends, silent, delivers⟩ := overflows drifts stage.standing g.measure_quad rfl halts enough
    exact ⟨.tooFar near ends silent, delivers⟩
  | some d =>
    have near' : word? (1 - n.toInt) ≠ none := by
      rw [near]
      exact Option.some_ne_none d
    rw [word_eq_some] at near
    have start : g.Round n 0 entered := ⟨1, w, rfl, result, stage⟩
    rcases start.rounds n.toInt.toNat (Nat.le_refl _) with
      ⟨next, drifts', round⟩ | ⟨large, j, last, few, drifts', i, w', x, stage', exact, overflow⟩
    · have few := g.lt_of_fits round.fits
      have enough : 2 + (5 * n.toInt.toNat + 2) + 1 < fuel := by omega
      obtain ⟨i, w', counter, result', stage'⟩ := round
      have lower := d.le_toInt
      have upper := d.toInt_lt
      -- the last distance is 1, or the one that fits by assumption if there were no rounds
      obtain ⟨d', far⟩ : ∃ d' : Int64, d'.toInt = i.toInt - n.toInt := exists_word (by omega) (by omega)
      obtain ⟨last, drifts'', stage''⟩ := stage'.measure far
      rw [if_pos (by omega)] at stage''
      obtain ⟨line, ends, delivers⟩ := stage''.prints (drifts.trans (drifts'.trans drifts'')) enough
      have fits : word? (g.total n.toInt.toNat) = some w' := word_eq_some.mpr result'
      rw [result'] at line
      refine ⟨.prints near' ?_ line ends, delivers⟩
      rw [fits]
      exact Option.some_ne_none w'
    · have enough : 2 + (5 * j + 2) < fuel := by omega
      have halts := stage'.standing.overflow g.op g.gather_quad stage'.result stage'.counter exact overflow
      obtain ⟨ends, silent, delivers⟩ :=
        overflows (drifts.trans drifts') stage'.standing g.gather_quad (utters_operator g.op) halts enough
      refine ⟨.tooLarge near' (word_eq_none.mpr ?_) ends silent, delivers⟩
      omega

/-- Further runs start from the same loop and the same number. -/
theorem Loaded.afterRuns (loaded : g.Loaded n m.program) (free : m.stepLimit ≤ 0) (fuel runs : Nat) :
    g.Loaded n (m.afterRuns fuel runs).program ∧ (m.afterRuns fuel runs).stepLimit ≤ 0 := by
  induction runs generalizing m with
  | zero => exact ⟨loaded, free⟩
  | succ runs ih =>
    apply ih
    · exact Machine.run_keeps (fun _ _ steps here => here.step steps) loaded .background fuel
    · rw [Machine.run_stepLimit]
      exact free

end Gathering

namespace Demo

/-- The loop of `factorial`. -/
def multiplying : Gathering where
  op := .mul
  total := Nat.factorial
  first := 3
  unit := 3
  distance := 4
  entry := [⟨.mov, 3, 0, 1⟩, ⟨.mov, 3, 0, 2⟩]
  gathers k := by
    rw [Operator.exactly, Nat.factorial_succ, Nat.mul_comm, Int.natCast_mul]
  grows k := Nat.factorial_le (Nat.le_succ k)
  exceeds := ⟨21, by decide, by decide⟩
  apart := by decide
  enters := .inl rfl

theorem sum_exceeds : 2 ^ 63 ≤ ∑ i ∈ Finset.range (2 ^ 32 + 1), i := by
  have := Finset.sum_range_id_mul_two (2 ^ 32 + 1)
  omega

/-- The loop of `summation`. -/
def adding : Gathering where
  op := .add
  total k := ∑ i ∈ Finset.range (k + 1), i
  first := 3
  unit := 4
  distance := 5
  entry := [⟨.mov, 3, 0, 2⟩, ⟨.mov, 4, 0, 1⟩]
  gathers k := by
    rw [Operator.exactly, Finset.sum_range_succ _ (k + 1)]
    exact congrArg _ (Int.natCast_add _ _).symm
  grows k := by
    rw [Finset.sum_range_succ _ (k + 1)]
    exact Nat.le_add_right _ _
  exceeds := ⟨2 ^ 32, Nat.le_refl _, sum_exceeds⟩
  apart := by decide
  enters := .inr rfl

/-- New names get the next cells, while there is room. -/
theorem cells_of_adds (cells : List (String × Usage × Int64)) (table : SymbolTable)
    (room : table.size + cells.length ≤ table.capacity)
    (distinct : ((cells.map Prod.fst).map fun name => (Text.ofString name).fold).Nodup)
    (new : ∀ cell ∈ cells, table.lookup? cell.1 = none) :
    (cells.foldl (fun table cell => (table.add cell.1 cell.2.1 (.int cell.2.2)).2) table).cells.toList =
      table.cells.toList ++ cells.map fun cell => ⟨cell.1, cell.2.1, .int cell.2.2⟩ := by
  induction cells generalizing table with
  | nil => exact (List.append_nil _).symm
  | cons cell cells ih =>
    obtain ⟨new', later⟩ := List.forall_mem_cons.mp new
    obtain ⟨other, distinct'⟩ := List.nodup_cons.mp distinct
    rw [List.length_cons] at room
    have adds : (table.add cell.1 cell.2.1 (.int cell.2.2)).2 =
        table.insert ⟨cell.1, cell.2.1, .int cell.2.2⟩ := by
      rcases table.add_cases cell.1 cell.2.1 (.int cell.2.2) with
        ⟨i, found, _⟩ | ⟨_, full, _⟩ | ⟨_, _, adds⟩
      · rw [new'] at found
        cases found
      · omega
      · rw [adds]
    rw [List.foldl_cons, adds, ih _ _ distinct']
    · simp [SymbolTable.insert]
    · intro third member
      rw [SymbolTable.lookup_insert, if_neg, later third member]
      intro same
      exact other (List.mem_map.mpr ⟨third.1, List.mem_map_of_mem member, same⟩)
    · rw [SymbolTable.size_insert]
      change _ ≤ table.capacity
      omega

theorem holds_build {cells : List (String × Usage × Int64)} {quads : List Quad} {i : Nat} {value : Value}
    (few : (cells.map Prod.fst).length ≤ 8)
    (distinct : ((cells.map Prod.fst).map fun name => (Text.ofString name).fold).Nodup)
    (here : (cells[i]?.map fun cell => Value.int cell.2.2) = some value) :
    (build cells quads).symbols.Holds i value := by
  rw [List.length_map] at few
  have room : tables.symbols.size + cells.length ≤ tables.symbols.capacity := by
    change 0 + _ ≤ 8
    omega
  have all : (build cells quads).symbols.cells.toList = _ :=
    cells_of_adds cells tables.symbols room distinct fun _ _ => rfl
  apply Option.map_eq_some_iff.mp
  rw [← Array.getElem?_toList, all]
  change ((cells.map _)[i]?).map _ = _
  rw [List.getElem?_map, Option.map_map]
  exact here

theorem factorial_loaded (n : Int64) : multiplying.Loaded n (factorial n) := by
  have few : ["n", "i", "product", "1", "@T1"].length ≤ 8 := by decide
  have distinct : (["n", "i", "product", "1", "@T1"].map fun name => (Text.ofString name).fold).Nodup := by
    decide +kernel
  have holds (i : Nat) (value : Value) (here : _ = some value) : (factorial n).symbols.Holds i value :=
    holds_build few distinct here
  constructor
  · rfl
  · exact holds 0 _ rfl
  · exact holds multiplying.unit _ rfl
  · exact ⟨1, rfl, holds multiplying.first _ rfl⟩
  · exact (holds 1 (.int 0) rfl).kindAt (.refl _)
  · exact (holds 2 (.int 0) rfl).kindAt (.refl _)
  · exact (holds multiplying.distance (.int 0) rfl).kindAt (.refl _)

theorem summation_loaded (n : Int64) : adding.Loaded n (summation n) := by
  have few : ["n", "i", "sum", "0", "1", "@T1"].length ≤ 8 := by decide
  have distinct : (["n", "i", "sum", "0", "1", "@T1"].map fun name => (Text.ofString name).fold).Nodup := by
    decide +kernel
  have holds (i : Nat) (value : Value) (here : _ = some value) : (summation n).symbols.Holds i value :=
    holds_build few distinct here
  constructor
  · rfl
  · exact holds 0 _ rfl
  · exact holds adding.unit _ rfl
  · exact ⟨0, rfl, holds adding.first _ rfl⟩
  · exact (holds 1 (.int 0) rfl).kindAt (.refl _)
  · exact (holds 2 (.int 0) rfl).kindAt (.refl _)
  · exact (holds adding.distance (.int 0) rfl).kindAt (.refl _)

end Demo

/-- Each run with `factorial n` prints the product of the numbers up to `n`, each run with `summation n`
their sum, or overflows where the result or the first distance does not fit. -/
theorem built_in_programs_compute_their_functions (n : Int64) (m : Machine) (free : m.stepLimit ≤ 0)
    (fuel : Nat) (long : Machine.horizon ≤ fuel) (runs : Nat) :
    let before := m.afterRuns fuel runs
    (m.program = Demo.factorial n →
      before.Computes fuel n n.toInt.toNat.factorial (.fault 2 ⟨.sub, 1, 0, 4⟩ .overflow)
        (.fault 4 ⟨.mul, 2, 1, 2⟩ .overflow) ∧ before.Delivered fuel) ∧
    (m.program = Demo.summation n →
      before.Computes fuel n (∑ i ∈ Finset.range (n.toInt.toNat + 1), i)
        (.fault 2 ⟨.sub, 1, 0, 5⟩ .overflow) (.fault 4 ⟨.add, 2, 1, 2⟩ .overflow) ∧
          before.Delivered fuel) ∧
    (m.console.Steady → before.console.Steady ∧ before.console.numbers = m.console.numbers) := by
  intro before
  refine ⟨fun program => ?_, fun program => ?_, fun steady => Machine.afterRuns_steady steady fuel runs⟩
  · have loaded : Demo.multiplying.Loaded n m.program := program ▸ Demo.factorial_loaded n
    obtain ⟨loaded', free'⟩ := loaded.afterRuns free fuel runs
    exact loaded'.computes free' long
  · have loaded : Demo.adding.Loaded n m.program := program ▸ Demo.summation_loaded n
    obtain ⟨loaded', free'⟩ := loaded.afterRuns free fuel runs
    exact loaded'.computes free' long

/-- The second run prints the factorial of 5 again, the third fails at that of 21 like the first, and no
run starts to sum up to the least word. -/
theorem factorials_are_computed_again :
    let five := Machine.buffered (Demo.factorial 5) []
    let many := Machine.buffered (Demo.factorial 21) []
    let least := Machine.buffered (Demo.summation Int64.minValue) []
    (five.stepLimit ≤ 0 ∧ many.stepLimit ≤ 0 ∧ least.stepLimit ≤ 0 ∧ five.console.Steady) ∧
    (five.afterRuns Machine.horizon 1).output .background Machine.horizon = Text.bytes "120\n" ∧
    ((five.afterRuns Machine.horizon 1).run .background Machine.horizon).1 = .finished none ∧
    ((many.afterRuns Machine.horizon 2).run .background Machine.horizon).1 =
      .finished (some (.fault 4 ⟨.mul, 2, 1, 2⟩ .overflow)) ∧
    (least.run .background Machine.horizon).1 = .finished (some (.fault 2 ⟨.sub, 1, 0, 5⟩ .overflow)) := by
  intro five many least
  have near : word? (1 - (5 : Int64).toInt) ≠ none ∧ word? (1 - (21 : Int64).toInt) ≠ none := by decide
  have distant : word? (1 - Int64.minValue.toInt) = none := by decide
  have fits : word? ((5 : Int64).toInt.toNat.factorial : Nat) ≠ none := by decide
  have large : word? ((21 : Int64).toInt.toNat.factorial : Nat) = none := by decide
  have steady : five.console.Steady := Console.steady_single Manner.reliable_willing rfl rfl
  obtain ⟨computes, _, keeps⟩ := built_in_programs_compute_their_functions 5 five (Int.le_refl 0)
    Machine.horizon (Nat.le_refl _) 1
  obtain ⟨overflows, _⟩ := built_in_programs_compute_their_functions 21 many (Int.le_refl 0)
    Machine.horizon (Nat.le_refl _) 2
  obtain ⟨_, fails, _⟩ := built_in_programs_compute_their_functions Int64.minValue least (Int.le_refl 0)
    Machine.horizon (Nat.le_refl _) 0
  refine ⟨⟨Int.le_refl 0, Int.le_refl 0, Int.le_refl 0, steady⟩, ?_⟩
  cases (computes rfl).1 with
  | tooFar distant => exact absurd distant near.1
  | tooLarge _ large => exact absurd large fits
  | prints _ _ line ends =>
    refine ⟨line, ends (keeps steady).1, ?_, ?_⟩
    · cases (overflows rfl).1 with
      | tooFar distant => exact absurd distant near.2
      | tooLarge _ _ ends => exact ends
      | prints _ fits => exact absurd large fits
    · cases (fails rfl).1 with
      | tooFar _ ends => exact ends
      | tooLarge near | prints near => exact absurd distant near

end MiniPascal
