import MiniPascal.Proofs.Simulation.Setting

/-! # A machine follows a program

The machine stands at a place of the code when its memory represents the store of the program, its devices
were sent what the program has shown, and its integers are those to come. It follows a course of the
program when it gets to such a state if the course goes on, halts for the same reason if the course ends,
and takes as many steps as the course was given rounds if the course is unfinished.
-/

namespace MiniPascal

open Syntax Console

/-! ## Where a machine takes integers from -/

namespace Machine

/-- Where a machine takes integers from. -/
def feed (m : Machine) : Feed :=
  match m.script.bind fun i => m.scripts[i]? with
  | some script => .scripted script
  | none => .typed m.input

theorem feed_traced (m : Machine) (label message : Text) : (m.traced label message).feed = m.feed := by
  unfold traced
  split <;> rfl

theorem feed_ready (m : Machine) : m.ready.feed = m.feed := m.fetched.feed_traced _ _

theorem feed_closing (m : Machine) (cause : Option Failure) : (m.closing cause).feed = m.feed :=
  m.flushed.feed_traced _ _

theorem asked_feed {m : Machine} (steady : m.console.Steady) (drained : m.console.Drained)
    (prompt : Text) :
    (m.asked prompt).1 = (m.feed.ask prompt).2.1 ∧ (m.asked prompt).2.feed = (m.feed.ask prompt).2.2 ∧
      Passes (m.feed.ask prompt).1 m.console (m.asked prompt).2.console := by
  cases scripted : m.script.bind fun i => m.scripts[i]? with
  | some script =>
    obtain ⟨i, used, found⟩ := Option.bind_eq_some_iff.mp scripted
    have feed : m.feed = .scripted script := by rw [Machine.feed, scripted]
    rw [asked_of_script used found, feed]
    refine ⟨rfl, ?_, .refl steady.fluent⟩
    obtain ⟨bound, _⟩ := Array.getElem?_eq_some_iff.mp found
    simp [Machine.feed, used, Feed.ask, bound]
  | none =>
    have feed : m.feed = .typed m.input := by rw [Machine.feed, scripted]
    have completes := LineReader.readInteger_completes ⟨m.console, m.input⟩ prompt steady drained
    rw [asked_of_typed scripted, feed]
    refine ⟨completes.answer, ?_, completes.passes⟩
    simp only [Machine.feed, scripted, Feed.ask]
    exact congrArg Feed.typed completes.rest

end Machine

/-- How the end of a program shows after a run: in the failure that is reported, and in the quad that was
fetched last. -/
inductive Syntax.Ending.Reported (final : Machine) : Ending → Option Failure → Prop
  | finished (stops : final.quad.op = .stop) : Reported final .finished none
  | unanswered {failure : Failure} (reads : final.quad.op = .read) :
      Reported final (.unanswered failure) (if failure.isEndOfInput then none else some failure)
  | faulted {fault : Fault} {cause : Failure} (means : fault.Troubles (.fault cause)) :
      Reported final (.faulted fault) (some (.fault final.current final.quad cause))
  | broken {fault : Fault} {error : AccessError} (means : fault.Troubles (.crash error)) :
      Reported final (.faulted fault)
        (some (.fault final.current final.quad (.brokeOff "VM" (.access error))))

namespace Setting

variable {S : Setting}

/-! ## Code at a place -/

/-- Code stands at a place. -/
def Has (S : Setting) (place : Nat) (code : List Quad) : Prop :=
  ∀ k q, code[k]? = some q → S.quads[place + k]? = some q

namespace Has

variable {place : Nat} {code code' : List Quad} {q : Quad}

theorem head (has : S.Has place (q :: code)) : S.quads[place]? = some q := has 0 q rfl

theorem tail (has : S.Has place (q :: code)) : S.Has (place + 1) code := by
  intro k found here
  rw [show place + 1 + k = place + (k + 1) by omega]
  exact has (k + 1) found here

theorem left (has : S.Has place (code ++ code')) : S.Has place code := by
  intro k found here
  apply has
  obtain ⟨bound, _⟩ := List.getElem?_eq_some_iff.mp here
  rw [List.getElem?_append_left bound, here]

theorem right (has : S.Has place (code ++ code')) : S.Has (place + code.length) code' := by
  intro k found here
  rw [Nat.add_assoc]
  apply has
  rw [List.getElem?_append_right (Nat.le_add_right _ _), Nat.add_sub_cancel_left, here]

end Has

/-! ## Standing at a place -/

/-- A machine stands at a place of the code and is in the state of the program. -/
structure Standing (S : Setting) (state : State) (place : Nat) (m : Machine) : Prop where
  pc : m.pc = place
  quads : m.program.quads.code = S.quads
  free : m.stepLimit ≤ 0
  represents : S.Represents state.store m.program.symbols
  passes : Passes state.shown S.console m.console
  feed : m.feed = state.feed

/-- A machine has halted, and the program has ended in the same way. -/
structure Ended (S : Setting) (ending : Ending) (state : State) (halt : Halt) (final : Machine) :
    Prop where
  represents : S.Represents state.store final.program.symbols
  passes : Passes state.shown S.console final.console
  drained : ending ≠ .faulted .wrongKind → ∀ number, final.console.pending number = []
  feed : final.feed = state.feed
  reported : ending.Reported final (final.runFailure? halt)

namespace Standing

variable {state : State} {place : Nat} {m : Machine} {q : Quad}

theorem within (standing : S.Standing state place m) : ¬ m.OverLimit :=
  fun limit => absurd limit.1 (Int.not_lt.mpr standing.free)

theorem next (standing : S.Standing state place m) (here : S.quads[place]? = some q) : m.next = q := by
  rw [Machine.next, standing.pc]
  apply QuadTable.get_of_code
  rw [standing.quads, here]

theorem inside (standing : S.Standing state place m) (here : S.quads[place]? = some q) : m.Inside := by
  obtain ⟨bound, _⟩ := List.getElem?_eq_some_iff.mp here
  rw [Machine.Inside, standing.pc, ← QuadTable.length_code, standing.quads]
  exact bound

theorem intent (standing : S.Standing state place m) (here : S.quads[place]? = some q) :
    m.intent = q.action m.program.symbols := by
  rw [Machine.intent, standing.next here]

theorem steady (standing : S.Standing state place m) (sound : S.Sound) : m.console.Steady :=
  standing.passes.steady sound.steady

theorem ready (standing : S.Standing state place m) (sound : S.Sound) :
    S.Standing state (place + 1) m.ready where
  pc := by rw [m.pc_ready, standing.pc]
  quads := by rw [m.program_ready, standing.quads]
  free := by
    have same : m.ready.stepLimit = m.stepLimit := (m.fetched.sameState_traced _ _).stepLimit
    rw [same]
    exact standing.free
  represents := by
    rw [m.program_ready]
    exact standing.represents
  passes := by
    have passes := standing.passes.trans (Machine.ready_passes (standing.steady sound).fluent)
    rwa [List.append_nil] at passes
  feed := m.feed_ready.trans standing.feed

/-- A quad writes a cell. -/
theorem write {symbols : SymbolTable} {after : State} (standing : S.Standing state place m)
    (sound : S.Sound) (here : S.quads[place]? = some q)
    (does : q.action m.program.symbols = .ok (.write symbols))
    (represents : S.Represents after.store symbols) (feed : after.feed = state.feed)
    (shown : after.shown = state.shown) :
    m.Steps (m.ready.withSymbols symbols) ∧
      S.Standing after (place + 1) (m.ready.withSymbols symbols) := by
  have ready := standing.ready sound
  refine ⟨.write standing.within ((standing.intent here).trans does), ?_⟩
  exact ⟨ready.pc, ready.quads, ready.free, represents, shown ▸ ready.passes, feed ▸ ready.feed⟩

/-- A quad goes on elsewhere. -/
theorem goto {target : Nat} (standing : S.Standing state place m) (sound : S.Sound)
    (here : S.quads[place]? = some q) (does : q.action m.program.symbols = .ok (.goto target)) :
    ∃ next, m.Steps next ∧ S.Standing state target next ∧
      next.program.symbols = m.program.symbols := by
  have ready := standing.ready sound
  refine ⟨_, .goto standing.within ((standing.intent here).trans does), ?_,
    congrArg Program.symbols m.program_ready⟩
  exact ⟨rfl, ready.quads, ready.free, ready.represents, ready.passes, ready.feed⟩

/-- A machine is closed where it stands. -/
theorem closing {ending : Ending} {halt : Halt} (standing : S.Standing state place m) (sound : S.Sound)
    (cause : Option Failure)
    (reported : ending.Reported (m.closing cause) ((m.closing cause).runFailure? halt)) :
    S.Ended ending state halt (m.closing cause) := by
  have delivers := Machine.Delivers.closing sound.steady standing.passes cause (.stopped cause)
  constructor
  · exact (m.sameState_closing cause).program ▸ standing.represents
  · exact delivers.passes
  · exact fun _ => (delivers.drained trivial).pending
  · exact (m.feed_closing cause).trans standing.feed
  · exact reported

/-- A machine ends in trouble because of the program's fault. -/
theorem ending {fault : Fault} {trouble : Trouble} (standing : S.Standing state place m)
    (sound : S.Sound) (means : fault.Troubles trouble) :
    S.Ended (.faulted fault) state (m.ending trouble).1 (m.ending trouble).2 := by
  cases trouble with
  | fault cause =>
    apply standing.closing sound
    have closed := m.sameState_closing (some (m.faultBy cause))
    have reported : (m.closing (some (m.faultBy cause))).runFailure? (m.ending (.fault cause)).1 =
        some (.fault (m.closing (some (m.faultBy cause))).current
          (m.closing (some (m.faultBy cause))).quad cause) := by
      rw [closed.current, closed.quad]
      cases means <;> rfl
    rw [reported]
    exact .faulted means
  | crash error =>
    have broken : fault = .wrongKind := by
      cases means
      rfl
    exact ⟨standing.represents, standing.passes, fun other => absurd (congrArg _ broken) other,
      standing.feed, .broken means⟩

/-- A quad that cannot be executed for a reason that is a fault of the program. -/
theorem trouble {fault : Fault} {trouble : Trouble} (standing : S.Standing state place m)
    (sound : S.Sound) (here : S.quads[place]? = some q)
    (does : q.action m.program.symbols = .error trouble) (means : fault.Troubles trouble) :
    ∃ halt final, m.Halts halt final ∧ S.Ended (.faulted fault) state halt final :=
  ⟨_, _, .trouble standing.within ((standing.intent here).trans does),
    (standing.ready sound).ending sound means⟩

/-- A value is printed on a line of its own. -/
theorem print {i : Nat} {value : Value} (standing : S.Standing state place m) (sound : S.Sound)
    (here : S.quads[place]? = some ⟨.print, 0, 0, i⟩) (holds : m.program.symbols.Holds i value) :
    ∃ next, m.Steps next ∧ S.Standing (state.print value) (place + 1) next ∧
      next.program.symbols = m.program.symbols := by
  have does : Quad.action ⟨.print, 0, 0, i⟩ m.program.symbols = .ok (.print value) := by
    simp only [Quad.action, holds.value]
    rfl
  have ready := standing.ready sound
  have shown := (ready.steady sound).write value.toText.line.bytes
  refine ⟨_, .print standing.within ((standing.intent here).trans does) shown, ?_,
    congrArg Program.symbols m.program_ready⟩
  have written := write_passes (ready.steady sound).frank.served shown
  exact ⟨ready.pc, ready.quads, ready.free, ready.represents, ready.passes.trans written, ready.feed⟩

/-- The machine asks for an integer as the program does. -/
theorem answered (standing : S.Standing state place m) (sound : S.Sound) (name : Text)
    {shown : Bytes} {answer : Except Failure Int64} {feed : Feed}
    (asks : state.feed.ask (Exec.prompt name) = (shown, answer, feed)) :
    (m.answered name).1 = answer ∧
      S.Standing { state with feed, shown := state.shown ++ shown } (place + 1) (m.answered name).2 := by
  have ready := standing.ready sound
  have steady := ready.steady sound
  obtain ⟨flushed, drained⟩ := flush_passes steady.frank.served steady.flush
  have same := m.sameState_answered name
  have steady' : m.ready.flushed.console.Steady := flushed.steady steady
  have source : m.ready.flushed.feed = state.feed := ready.feed
  obtain ⟨answers, fed, passes⟩ := Machine.asked_feed steady' drained (Exec.prompt name)
  rw [source, asks] at answers fed passes
  refine ⟨answers, same.pc.trans ready.pc, ?_, ?_, ?_, ?_, fed⟩
  · rw [same.program]
    exact ready.quads
  · rw [same.stepLimit]
    exact ready.free
  · rw [same.program]
    exact ready.represents
  · exact ready.passes.trans (flushed.trans passes)

end Standing

/-! ## Following a course -/

/-- What a machine does while a course of the program is gone through. -/
inductive Follows (S : Setting) {α : Type} (n : Nat) (m : Machine) (there : α → Machine → Prop) :
    Course α → Prop
  | goesOn {k : Nat} {result : α} {next : Machine} (reaches : Machine.ReachesIn k m next)
      (arrives : there result next) : Follows S n m there (.goesOn result)
  | ends {k : Nat} {last final : Machine} {halt : Halt} {ending : Ending} {state : State}
      (reaches : Machine.ReachesIn k m last) (inside : last.Inside) (halts : last.Halts halt final)
      (ended : S.Ended ending state halt final) : Follows S n m there (.ends ending state)
  | unfinished {k : Nat} {last : Machine} (many : n ≤ k) (reaches : Machine.ReachesIn k m last) :
      Follows S n m there .unfinished

namespace Follows

variable {α β : Type} {n : Nat} {m next : Machine} {there : α → Machine → Prop}
  {after : β → Machine → Prop} {course : Course α}

theorem here {result : α} (arrives : there result m) : S.Follows n m there (.goesOn result) :=
  .goesOn (.refl m) arrives

theorem after_steps {k : Nat} (reaches : Machine.ReachesIn k m next)
    (follows : S.Follows n next there course) : S.Follows n m there course := by
  cases follows with
  | goesOn later arrives => exact .goesOn (reaches.trans later) arrives
  | ends later inside halts ended => exact .ends (reaches.trans later) inside halts ended
  | @unfinished j _ many later => exact .unfinished (Nat.le_add_left_of_le many) (reaches.trans later)

/-- A step makes up for a round. -/
theorem after_step (steps : m.Steps next) (follows : S.Follows n next there course) :
    S.Follows (n + 1) m there course := by
  cases follows with
  | goesOn later arrives => exact .goesOn (.head steps later) arrives
  | ends later inside halts ended => exact .ends (.head steps later) inside halts ended
  | unfinished many later => exact .unfinished (Nat.succ_le_succ many) (.head steps later)

theorem mono {elsewhere : α → Machine → Prop} (follows : S.Follows n m there course)
    (weaker : ∀ result next, there result next → elsewhere result next) :
    S.Follows n m elsewhere course := by
  cases follows with
  | goesOn reaches arrives => exact .goesOn reaches (weaker _ _ arrives)
  | ends reaches inside halts ended => exact .ends reaches inside halts ended
  | unfinished many reaches => exact .unfinished many reaches

theorem bind {f : α → Course β} (first : S.Follows n m there course)
    (second : ∀ result next, there result next → S.Follows n next after (f result)) :
    S.Follows n m after (course >>= f) := by
  cases first with
  | goesOn reaches arrives => exact after_steps reaches (second _ _ arrives)
  | ends reaches inside halts ended => exact .ends reaches inside halts ended
  | unfinished many reaches => exact .unfinished many reaches

theorem step (steps : m.Steps next) (follows : S.Follows n next there course) :
    S.Follows n m there course :=
  after_steps (.head steps (.refl next)) follows

/-- A quad that does what the program asks for, or cannot be executed because of the program's fault. -/
theorem of_agree {same : α → Action → Prop} {state : State} {place : Nat} {q : Quad}
    {x : Except Fault α} {f : α → Course β} (standing : S.Standing state place m) (sound : S.Sound)
    (here : S.quads[place]? = some q) (agrees : Agree same x (q.action m.program.symbols))
    (goes : ∀ result action, same result action → q.action m.program.symbols = .ok action →
      S.Follows n m after (f result)) :
    S.Follows n m after (state.attempt x >>= f) := by
  generalize does : q.action m.program.symbols = outcome at agrees
  cases agrees with
  | ok related => exact goes _ _ related does
  | error means =>
    obtain ⟨halt, final, halts, ended⟩ := standing.trouble sound here does means
    exact .ends (.refl m) (standing.inside here) halts ended

end Follows

/-- The end of the code. -/
theorem Standing.stop {state : State} {place n : Nat} {m : Machine} {there : Empty → Machine → Prop}
    (standing : S.Standing state place m) (sound : S.Sound)
    (here : S.quads[place]? = some ⟨.stop, 0, 0, 0⟩) : S.Follows n m there (.ends .finished state) := by
  have ready := standing.ready sound
  have does : m.intent = .ok .stop := standing.intent here
  have stops := (m.ready.sameState_closing none).quad.trans m.quad_ready
  rw [standing.next here] at stops
  apply Follows.ends (.refl m) (standing.inside here) (.stop standing.within does)
  apply ready.closing sound
  rw [(ready.steady sound).flush]
  exact .finished (congrArg Quad.op stops)

end Setting

end MiniPascal
