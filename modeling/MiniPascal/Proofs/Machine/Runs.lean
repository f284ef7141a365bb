import MiniPascal.Proofs.Machine.Steps
import Mathlib.Logic.Relation

/-! # Runs

A run goes from state to state by steps until it ends: at a quad that cannot be executed or stops the
machine, because the context says so, or past the last quad. `Ends` lists these ends. What a run comes to
is the end of the last state that it reaches.
-/

namespace MiniPascal

namespace Machine

/-- A machine comes to another state by steps. -/
abbrev Reaches : Machine → Machine → Prop := Relation.ReflTransGen Steps

/-- There is a quad to execute. -/
def Inside (m : Machine) : Prop := m.pc < m.program.quads.size

instance (m : Machine) : Decidable m.Inside := inferInstanceAs (Decidable (_ < _))

theorem next_of_outside {m : Machine} (outside : ¬ m.Inside) : m.next = .missing :=
  QuadTable.get_of_size_le (Nat.not_lt.mp outside)

theorem Inside.code {m : Machine} (inside : m.Inside) :
    m.program.quads.code[m.pc]? = some m.next := by
  have here : m.program.quads.code[m.pc]? = some m.program.quads.code[m.pc] :=
    List.getElem?_eq_getElem inside
  have next : m.next = _ := QuadTable.get_of_code here
  rw [next]
  exact here

/-- The ways in which a run ends at its last state, with what it is reported as: nothing if it just
runs past the last quad. What the context answers after the quad there is given. -/
inductive Ends (interruption : Option Failure) (m : Machine) : Option Halt → Machine → Prop
  | halt {halt : Halt} {after : Machine} (inside : m.Inside) (halts : m.Halts halt after) :
      Ends interruption m (some halt) after
  | interrupted {failure : Failure} {after : Machine} (inside : m.Inside) (steps : m.Steps after)
      (called : interruption = some failure) :
      Ends interruption m (some (.stopped (some failure))) (after.closing (some failure))
  | past (outside : ¬ m.Inside) (clear : m.console.flush.1 = none) :
      Ends interruption m none m.flushed
  | unflushed {failure : Failure} (outside : ¬ m.Inside)
      (fails : m.console.flush.1 = some failure) :
      Ends interruption m (some (.stopped (some failure))) (m.flushed.closing (some failure))

/-- A machine comes to another state by exactly `n` steps. -/
inductive ReachesIn : Nat → Machine → Machine → Prop
  | refl (m : Machine) : ReachesIn 0 m m
  | head {n : Nat} {m next last : Machine} (steps : m.Steps next) (later : ReachesIn n next last) :
      ReachesIn (n + 1) m last

theorem ReachesIn.reaches {n : Nat} {m last : Machine} (reaches : ReachesIn n m last) : m.Reaches last := by
  induction reaches with
  | refl => exact .refl
  | head steps _ ih => exact .head steps ih

/-- A run comes to another state by `n` steps, and its context lets it go on after each of them; `done`
quads were executed before. -/
structure Goes (context : Context) (done n : Nat) (m last : Machine) : Prop where
  reachesIn : ReachesIn n m last
  quiet : ∀ k < n, context (done + k) = none

namespace Goes

variable {context : Context} {done n : Nat} {m next last : Machine}

theorem refl (context : Context) (done : Nat) (m : Machine) : Goes context done 0 m m :=
  ⟨.refl m, fun _ less => absurd less (Nat.not_lt_zero _)⟩

theorem head (steps : m.Steps next) (quiet : context done = none) (later : Goes context (done + 1) n next last) :
    Goes context done (n + 1) m last := by
  constructor
  · exact .head steps later.reachesIn
  · intro k less
    cases k with
    | zero => exact quiet
    | succ k =>
      rw [← Nat.add_assoc, Nat.add_right_comm]
      exact later.quiet k (Nat.lt_of_succ_lt_succ less)

theorem of_succ (goes : Goes context done (n + 1) m last) :
    ∃ next, m.Steps next ∧ context done = none ∧ Goes context (done + 1) n next last := by
  obtain ⟨⟨⟩ | ⟨steps, later⟩, quiet⟩ := goes
  refine ⟨_, steps, quiet 0 (Nat.succ_pos n), later, fun k less => ?_⟩
  rw [Nat.add_right_comm]
  exact quiet (k + 1) (Nat.succ_lt_succ less)

theorem reaches (goes : Goes context done n m last) : m.Reaches last := goes.reachesIn.reaches

end Goes

/-- A run ends at a state that it comes to within `fuel` quads. -/
inductive EndsWithin (context : Context) (done fuel : Nat) (m : Machine) : Option Halt → Machine → Prop
  | intro {n : Nat} {last after : Machine} {halt : Option Halt} (few : n < fuel)
      (goes : Goes context done n m last) (ends : last.Ends (context (done + n)) halt after) :
      EndsWithin context done fuel m halt after

theorem EndsWithin.later {context : Context} {done fuel : Nat} {m next after : Machine} {halt : Option Halt}
    (steps : m.Steps next) (quiet : context done = none)
    (ends : EndsWithin context (done + 1) fuel next halt after) :
    EndsWithin context done (fuel + 1) m halt after := by
  obtain ⟨few, goes, ends⟩ := ends
  rw [Nat.add_right_comm] at ends
  exact ⟨Nat.succ_lt_succ few, .head steps quiet goes, ends⟩

/-- Every run ends at a state that it comes to, or has not ended yet and is at such a state. -/
theorem runWithin_ends (context : Context) (fuel : Nat) : ∀ (done : Nat) (m : Machine),
    Leads (Exec.runWithin context done fuel) m (fun _ => EndsWithin context done fuel m none)
      (fun halt after => halt = .outOfFuel ∧ Goes context done fuel m after ∨
        EndsWithin context done fuel m (some halt) after) := by
  induction fuel with
  | zero =>
    intro done m
    exact Leads.of_throw (.inl ⟨rfl, .refl context done m⟩)
  | succ fuel ih =>
    intro done m
    have here {halt : Option Halt} {after : Machine} (ends : m.Ends (context done) halt after) :
        EndsWithin context done (fuel + 1) m halt after :=
      ⟨Nat.succ_pos fuel, .refl context done m, ends⟩
    unfold Exec.runWithin
    apply Leads.get_bind
    split
    · rename_i inside
      apply Leads.bind
      cases ran : Exec.step m with
      | error halt after =>
        have halts := Leads.error (step_leads m) ran
        exact Leads.of_error ran (.inr (here (.halt inside halts)))
      | ok _ after =>
        have steps := Leads.ok (step_leads m) ran
        apply Leads.of_ok ran
        cases called : context done with
        | some failure =>
          apply Leads.bind
          exact Leads.of_error (Exec.haltIf_some failure after)
            (.inr (here (.interrupted inside steps called)))
        | none =>
          apply Leads.bind (Leads.of_ok (Exec.haltIf_none after) _)
          apply (ih (done + 1) after).mono
          · exact fun _ _ ends => ends.later steps called
          · rintro halt final (⟨rfl, goes⟩ | ends)
            · exact .inl ⟨rfl, .head steps called goes⟩
            · exact .inr (ends.later steps called)
    · rename_i outside
      change Leads (Exec.haltIf m.console.flush.1) m.flushed _ _
      cases clear : m.console.flush.1 with
      | none => exact Leads.of_ok (Exec.haltIf_none _) (here (.past outside clear))
      | some failure =>
        exact Leads.of_error (Exec.haltIf_some failure _) (.inr (here (.unflushed outside clear)))

theorem Halts.ne_outOfFuel {m after : Machine} {halt : Halt} (halts : m.Halts halt after) :
    halt ≠ .outOfFuel := by
  have troubled {stuck : Machine} (trouble : Trouble) : (stuck.ending trouble).1 ≠ .outOfFuel := by
    cases trouble <;> nofun
  cases halts with
  | limit | trouble | badJump | unstored => exact troubled _
  | stop | unshown | unflushed | unnamed | unanswered => nofun

theorem Ends.ne_outOfFuel {interruption : Option Failure} {m after : Machine} {halt : Halt}
    (ends : m.Ends interruption (some halt) after) : halt ≠ .outOfFuel := by
  cases ends with
  | halt _ halts => exact halts.ne_outOfFuel
  | interrupted | unflushed => nofun

/-- What a run comes to: it has not ended yet, it has gone past the last quad, or it has ended at a state
that it came to and is reported as that end says. -/
inductive Comes (context : Context) (m : Machine) : RunEnd × Machine → Prop
  | outOfFuel {n : Nat} {last : Machine} (goes : Goes context 0 n m.rewind last) :
      Comes context m (.outOfFuel, last)
  | past {n : Nat} {last after : Machine} (goes : Goes context 0 n m.rewind last)
      (ends : last.Ends (context n) none after) : Comes context m (.finished none, after)
  | halted {n : Nat} {last after : Machine} {halt : Halt} (goes : Goes context 0 n m.rewind last)
      (ends : last.Ends (context n) (some halt) after) :
      Comes context m (.finished (after.runFailure? halt), after)

theorem run_comes (m : Machine) (context : Context) (fuel : Nat) :
    m.Comes context (m.run context fuel) := by
  have leads := runWithin_ends context fuel 0 m.rewind
  unfold run
  cases ran : Exec.runWithin context 0 fuel m.rewind with
  | ok _ after =>
    obtain ⟨few, goes, ends⟩ := Leads.ok leads ran
    rw [Nat.zero_add] at ends
    exact .past goes ends
  | error halt after =>
    obtain ⟨rfl, goes⟩ | ⟨few, goes, ends⟩ := Leads.error leads ran
    · exact .outOfFuel goes
    · rw [Nat.zero_add] at ends
      cases halt with
      | outOfFuel => exact absurd rfl ends.ne_outOfFuel
      | stopped | crashed => exact .halted goes ends

theorem runFailure_stopped (m : Machine) (failure : Failure) :
    m.runFailure? (.stopped (some failure)) = if failure.isEndOfInput then none else some failure := by
  rw [runFailure?, Option.filter_some]
  cases failure.isEndOfInput <;> rfl

theorem eq_of_runFailure {after : Machine} {cause : Option Failure} {failure : Failure}
    (reported : after.runFailure? (.stopped cause) = some failure) : cause = some failure :=
  (Option.filter_eq_some_iff.mp reported).1

/-- A property that every step keeps is kept along a run. -/
theorem Reaches.keeps {P : Machine → Prop} {m last : Machine} (reaches : m.Reaches last)
    (step : ∀ m after, m.Steps after → P m → P after) (start : P m) : P last := by
  induction reaches with
  | refl => exact start
  | tail _ steps ih => exact step _ _ steps ih

end Machine

namespace Quad

variable {q : Quad} {symbols after : SymbolTable}

theorem alike_of_write (does : q.Does symbols (.write after)) : symbols.Alike after := by
  cases does with
  | arithmetic is left right computes stores => exact SymbolTable.alike_of_stored stores
  | mov is source stores => exact SymbolTable.alike_of_stored stores

theorem jump_of_goto {target : Int} (does : q.Does symbols (.goto target)) :
    q.op.isJump = true ∧ q.c = target ∨ q.op = .jindr := by
  have jumps (is : q.op.isConditional = true) : q.op.isJump = true := by
    cases op : q.op <;> simp_all [Opcode.isConditional, Opcode.isJump]
  cases does with
  | jump is => exact .inl ⟨by rw [is]; rfl, rfl⟩
  | taken is => exact .inl ⟨jumps is, rfl⟩
  | through is => exact .inr is

end Quad

namespace Machine

/-- A step leaves the quads and the shape of the memory. -/
theorem Steps.program {m after : Machine} (steps : m.Steps after) :
    after.program.quads = m.program.quads ∧ m.program.symbols.Alike after.program.symbols := by
  cases steps with
  | write within does =>
    have same : m.ready.program.quads = m.program.quads := congrArg Program.quads m.program_ready
    exact ⟨same, Quad.alike_of_write (Quad.does_of_action does)⟩
  | goto | next | print =>
    refine ⟨congrArg Program.quads m.program_ready, ?_⟩
    change m.program.symbols.Alike m.ready.program.symbols
    rw [m.program_ready]
    exact .refl _
  | @read _ name _ _ within does clear named answers stores =>
    have same : (m.answered name).2.program.quads = m.program.quads :=
      congrArg Program.quads ((m.sameState_answered name).program.trans m.program_ready)
    exact ⟨same, SymbolTable.alike_of_stored stores⟩

/-- Where a step leads: to the next quad, or where the quad jumps. -/
theorem Steps.pc {m after : Machine} (steps : m.Steps after) :
    after.pc = m.pc + 1 ∨ m.next.op.isJump = true ∧ m.next.c = after.pc ∨ m.next.op = .jindr := by
  cases steps with
  | write | next | print => exact .inl m.pc_ready
  | goto within does => exact .inr (Quad.jump_of_goto (Quad.does_of_action does))
  | @read _ name => exact .inl ((m.sameState_answered name).pc.trans m.pc_ready)

/-- A `STOP` is no step. -/
theorem Steps.ne_stop {m after : Machine} (steps : m.Steps after) : m.next.op ≠ .stop := by
  intro is
  have stops : m.intent = .ok .stop := by
    unfold intent Quad.action
    rw [is]
  cases steps with
  | write _ does | goto _ does | next _ does | print _ does | read _ does =>
    rw [stops] at does
    cases does

/-- Nothing but the surroundings changes when a machine halts after fetching a quad. -/
theorem Halts.sameState {m after : Machine} {halt : Halt} (halts : m.Halts halt after) :
    SameState m.fetched after := by
  have ready : SameState m.fetched m.ready := m.fetched.sameState_traced _ _
  cases halts with
  | limit => exact m.fetched.sameState_ending _
  | stop => exact ready.trans (m.ready.sameState_closing _)
  | trouble | badJump => exact ready.trans (m.ready.sameState_ending _)
  | unshown =>
    have shown (console : Console) : SameState m.ready { m.ready with console } :=
      ⟨rfl, rfl, rfl, rfl, rfl, rfl⟩
    exact (ready.trans (shown _)).trans (sameState_closing _ _)
  | unflushed => exact (ready.trans m.ready.sameState_flushed).trans (sameState_closing _ _)
  | unnamed => exact ready.trans m.ready.sameState_flushed
  | unanswered => exact (ready.trans (m.sameState_answered _)).trans (sameState_closing _ _)
  | unstored => exact (ready.trans (m.sameState_answered _)).trans (sameState_ending _ _)

/-- All of a run has the same quads and memories of one shape. -/
theorem Reaches.program {m last : Machine} (reaches : m.Reaches last) :
    last.program.quads = m.program.quads ∧ m.program.symbols.Alike last.program.symbols := by
  induction reaches with
  | refl => exact ⟨rfl, .refl _⟩
  | tail _ steps ih =>
    obtain ⟨quads, alike⟩ := steps.program
    exact ⟨quads.trans ih.1, ih.2.trans alike⟩

/-- What steps keep of a program and its memory is kept by a whole run. -/
theorem run_keeps {P : Program → Prop} {m : Machine}
    (step : ∀ m after : Machine, m.Steps after → P m.program → P after.program)
    (start : P m.program) (context : Context) (fuel : Nat) : P (m.run context fuel).2.program := by
  have at_last {last : Machine} (reaches : m.rewind.Reaches last) : P last.program :=
    Reaches.keeps reaches (P := fun m => P m.program) step start
  have at_end {last after : Machine} {interruption : Option Failure} {halt : Option Halt}
      (ends : last.Ends interruption halt after) (here : P last.program) : P after.program := by
    cases ends with
    | halt inside halts =>
      rw [halts.sameState.program]
      exact here
    | @interrupted failure next inside steps =>
      rw [(next.sameState_closing _).program]
      exact step last next steps here
    | past => exact here
    | unflushed =>
      rw [(last.flushed.sameState_closing _).program]
      exact here
  have comes := m.run_comes context fuel
  generalize m.run context fuel = result at comes
  cases comes with
  | outOfFuel goes => exact at_last goes.reaches
  | past goes ends | halted goes ends => exact at_end ends (at_last goes.reaches)

/-! ## Counting quads -/

variable {m next last after : Machine} {n fuel : Nat}

/-- Outside the program there is nothing to execute. -/
theorem Steps.started (steps : m.Steps after) : m.Inside := by
  by_contra outside
  have missing : m.next = .missing := next_of_outside outside
  have stuck : m.intent = .error (.fault (.badOpcode (.invalid (-1)))) := by
    rw [intent, missing]
    rfl
  cases steps with
  | write _ does | goto _ does | next _ does | print _ does | read _ does =>
    rw [stuck] at does
    cases does

theorem ReachesIn.tail (reaches : ReachesIn n m last) (steps : last.Steps after) :
    ReachesIn (n + 1) m after := by
  induction reaches with
  | refl m => exact .head steps (.refl _)
  | head first _ ih => exact .head first (ih steps)

theorem ReachesIn.trans {k : Nat} (first : ReachesIn n m next) (second : ReachesIn k next last) :
    ReachesIn (n + k) m last := by
  induction first with
  | refl =>
    rw [Nat.zero_add]
    exact second
  | @head n m middle next steps _ ih =>
    rw [show n + 1 + k = n + k + 1 by omega]
    exact .head steps (ih second)

theorem runWithin_of_steps {context : Context} {done : Nat} (steps : m.Steps after)
    (quiet : context done = none) (fuel : Nat) :
    Exec.runWithin context done (fuel + 1) m = Exec.runWithin context (done + 1) fuel after := by
  change (if m.Inside then _ else _ : Exec Unit) m = _
  rw [if_pos steps.started]
  change EStateM.bind Exec.step _ m = _
  rw [EStateM.bind, steps.eq]
  change EStateM.bind (Exec.haltIf (context done)) _ after = _
  rw [quiet]
  rfl

theorem runWithin_of_halts {context : Context} {done : Nat} {halt : Halt} (inside : m.Inside)
    (halts : m.Halts halt after) (fuel : Nat) :
    Exec.runWithin context done (fuel + 1) m = .error halt after := by
  change (if m.Inside then _ else _ : Exec Unit) m = _
  rw [if_pos inside]
  change EStateM.bind Exec.step _ m = _
  rw [EStateM.bind, halts.eq]

theorem runWithin_of_outside {context : Context} {done : Nat} (outside : ¬ m.Inside) (fuel : Nat) :
    Exec.runWithin context done (fuel + 1) m = Exec.haltIf m.console.flush.1 m.flushed := by
  change (if m.Inside then _ else _ : Exec Unit) m = _
  rw [if_neg outside]
  rfl

/-- The result of a run that ends, and the machine that is left. -/
def ended (after : Machine) : Option Halt → EStateM.Result Halt Machine Unit
  | none => .ok () after
  | some halt => .error halt after

theorem runWithin_of_ends {context : Context} {done : Nat} {halt : Option Halt}
    (ends : m.Ends (context done) halt after) (fuel : Nat) :
    Exec.runWithin context done (fuel + 1) m = after.ended halt := by
  cases ends with
  | halt inside halts => exact runWithin_of_halts inside halts fuel
  | interrupted inside steps called =>
    change (if m.Inside then _ else _ : Exec Unit) m = _
    rw [if_pos inside]
    change EStateM.bind Exec.step _ m = _
    rw [EStateM.bind, steps.eq]
    change EStateM.bind (Exec.haltIf (context done)) _ _ = _
    rw [called]
    rfl
  | past outside clear =>
    rw [runWithin_of_outside outside, clear]
    rfl
  | unflushed outside fails =>
    rw [runWithin_of_outside outside, fails]
    rfl

/-- A run goes on by a step or ends. -/
theorem steps_or_ends (interruption : Option Failure) (m : Machine) :
    (interruption = none ∧ ∃ next, m.Steps next) ∨ ∃ halt after, m.Ends interruption halt after := by
  by_cases inside : m.Inside
  · cases ran : Exec.step m with
    | error halt after =>
      have halts := Leads.error (step_leads m) ran
      exact .inr ⟨_, after, .halt inside halts⟩
    | ok _ next =>
      have steps := Leads.ok (step_leads m) ran
      cases interruption with
      | none => exact .inl ⟨rfl, next, steps⟩
      | some failure => exact .inr ⟨_, _, .interrupted inside steps rfl⟩
  · cases clear : m.console.flush.1 with
    | none => exact .inr ⟨_, _, .past inside clear⟩
    | some failure => exact .inr ⟨_, _, .unflushed inside clear⟩

/-- The first steps of a run may be left out. -/
theorem ReachesIn.runWithin (reaches : ReachesIn n m last) (done fuel : Nat) :
    Exec.runWithin .background done (fuel + n) m = Exec.runWithin .background (done + n) fuel last := by
  induction reaches generalizing done with
  | refl => rfl
  | @head n _ _ _ steps _ ih =>
    rw [← Nat.add_assoc, runWithin_of_steps steps rfl, ih, Nat.add_right_comm]
    rfl

/-- A run without interruption fetches `n` quads and then ends, and how it is reported. -/
inductive Finishes (m : Machine) : (n : Nat) → Option Failure → Machine → Prop
  | halted {n : Nat} {last after : Machine} {halt : Halt} (reaches : ReachesIn n m.rewind last)
      (inside : last.Inside) (halts : last.Halts halt after) :
      Finishes m (n + 1) (after.runFailure? halt) after
  | past {n : Nat} {last : Machine} (reaches : ReachesIn n m.rewind last)
      (outside : ¬ last.Inside) (clear : last.console.flush.1 = none) :
      Finishes m n none last.flushed
  | unflushed {n : Nat} {last : Machine} {failure : Failure} (reaches : ReachesIn n m.rewind last)
      (outside : ¬ last.Inside) (fails : last.console.flush.1 = some failure) :
      Finishes m n ((last.flushed.closing (some failure)).runFailure? (.stopped (some failure)))
        (last.flushed.closing (some failure))

theorem run_of_halts {halt : Halt} (reaches : ReachesIn n m.rewind last) (inside : last.Inside)
    (halts : last.Halts halt after) (enough : n < fuel) :
    m.run .background fuel = (.finished (after.runFailure? halt), after) := by
  obtain ⟨spare, rfl⟩ : ∃ spare, fuel = spare + 1 + n := ⟨fuel - n - 1, by omega⟩
  rw [Machine.run, reaches.runWithin, runWithin_of_halts inside halts]
  cases halt with
  | outOfFuel => exact absurd rfl halts.ne_outOfFuel
  | stopped | crashed => rfl

theorem runWithin_of_few {done : Nat} (reaches : ReachesIn n m last) (few : fuel ≤ n) :
    ∃ after, Exec.runWithin .background done fuel m = .error .outOfFuel after := by
  induction reaches generalizing fuel done with
  | refl m =>
    obtain rfl := Nat.le_zero.mp few
    exact ⟨m, rfl⟩
  | @head n m next last steps _ ih =>
    cases fuel with
    | zero => exact ⟨m, rfl⟩
    | succ fuel =>
      rw [runWithin_of_steps steps rfl]
      exact ih (Nat.le_of_succ_le_succ few)

/-- A run that takes `n` steps does not end before. -/
theorem run_of_few (reaches : ReachesIn n m.rewind last) (few : fuel ≤ n) :
    (m.run .background fuel).1 = .outOfFuel := by
  obtain ⟨after, ran⟩ := runWithin_of_few reaches few
  rw [Machine.run, ran]

theorem Finishes.run {ending : Option Failure} (finishes : m.Finishes n ending after)
    (enough : n < fuel) : m.run .background fuel = (.finished ending, after) := by
  cases finishes with
  | halted reaches inside halts => exact run_of_halts reaches inside halts (by omega)
  | past reaches outside clear =>
    obtain ⟨spare, rfl⟩ : ∃ spare, fuel = spare + 1 + n := ⟨fuel - n - 1, by omega⟩
    rw [Machine.run, reaches.runWithin, runWithin_of_outside outside, clear]
    rfl
  | unflushed reaches outside fails =>
    obtain ⟨spare, rfl⟩ : ∃ spare, fuel = spare + 1 + n := ⟨fuel - n - 1, by omega⟩
    rw [Machine.run, reaches.runWithin, runWithin_of_outside outside, fails]
    rfl

end Machine

end MiniPascal
