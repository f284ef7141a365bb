import MiniPascal.Proofs.Compiler.WrittenBlocks
import MiniPascal.Proofs.Simulation.Evaluation

/-! # The code of a statement is a closed block

A run that enters a closed block goes from quad to quad of it. It comes to the quad after the block, or it
ends at a quad of the block, which is no `STOP`. A statement that is read without an error appends such a
block to the quads there are, in any session.
-/

namespace MiniPascal

namespace Machine

variable {m next last after : Machine} {first low high : Nat} {code : List Quad}
variable {context : Context} {done : Nat}

/-! ## Runs through a block -/

/-- What comes of a run that enters a stretch of code after it has executed `done` quads. -/
inductive Crosses (low high : Nat) (context : Context) (done : Nat) (m : Machine) :
    EStateM.Result Halt Machine Unit → Prop
  /-- It comes to the quad after the stretch and goes on there. -/
  | left {n : Nat} {exit : Machine} (leaves : m.Leaves low high exit) (goes : Goes context done n m exit)
      (place : exit.pc = high) (fuel : Nat) :
      Crosses low high context done m (Exec.runWithin context (done + n) fuel exit)
  /-- It has not ended yet and is at a quad of the stretch. -/
  | unfinished {n : Nat} {last : Machine} (reaches : m.ReachesWithin low high last)
      (goes : Goes context done n m last) (within : low ≤ last.pc ∧ last.pc < high) :
      Crosses low high context done m (.error .outOfFuel last)
  /-- It ends at a quad of the stretch, which is no `STOP`. -/
  | ended {n : Nat} {last after : Machine} {halt : Halt} (reaches : m.ReachesWithin low high last)
      (goes : Goes context done n m last) (within : low ≤ last.pc ∧ last.pc < high)
      (goesOn : last.next.op ≠ .stop) (ends : last.EndsAt (context (done + n)) halt) :
      Crosses low high context done m (.error halt after)

theorem Crosses.head {result : EStateM.Result Halt Machine Unit} (steps : m.StepsIn low high next)
    (quiet : context done = none) (later : next.Crosses low high context (done + 1) result) :
    m.Crosses low high context done result := by
  cases later with
  | left leaves goes place fuel =>
    rw [Nat.add_right_comm]
    exact .left ⟨.head steps leaves.reaches, leaves.outside⟩ (.head steps.2 quiet goes) place fuel
  | unfinished reaches goes within =>
    exact .unfinished (.head steps reaches) (.head steps.2 quiet goes) within
  | ended reaches goes within goesOn ends =>
    rw [Nat.add_right_comm] at ends
    exact .ended (.head steps reaches) (.head steps.2 quiet goes) within goesOn ends

/-- At a place of the block the machine executes a quad of it. -/
theorem next_mem_of_within (has : code <+: m.program.quads.code.drop first)
    (within : first ≤ m.pc ∧ m.pc < first + code.length) : m.Inside ∧ m.next ∈ code := by
  obtain ⟨rest, same⟩ := has
  obtain ⟨k, place⟩ := Nat.exists_eq_add_of_le within.1
  have bound : k < code.length := by omega
  have here : m.program.quads.code[m.pc]? = some code[k] := by
    rw [place, ← List.getElem?_drop, ← same, List.getElem?_append_left bound,
      List.getElem?_eq_getElem bound]
  have quad : m.next = code[k] := QuadTable.get_of_code here
  exact ⟨(List.getElem?_eq_some_iff.mp here).1, quad ▸ List.getElem_mem bound⟩

variable (closed : ClosedBlock first code)

include closed

/-- A step at a quad of a closed block leads to a quad of it or to the one after it. -/
theorem StepsIn.stays (has : code <+: m.program.quads.code.drop first)
    (steps : m.StepsIn first (first + code.length) next) :
    first ≤ next.pc ∧ next.pc ≤ first + code.length := by
  obtain ⟨within, steps⟩ := steps
  have stays := closed _ (next_mem_of_within has within).2
  obtain plain | ⟨jump, same⟩ | through := steps.pc
  · omega
  · obtain ⟨target, here, lower, upper⟩ := stays.jumps jump
    omega
  · exact absurd through stays.direct

theorem ReachesWithin.stays (has : code <+: m.program.quads.code.drop first)
    (enters : first ≤ m.pc ∧ m.pc ≤ first + code.length)
    (reaches : m.ReachesWithin first (first + code.length) last) :
    first ≤ last.pc ∧ last.pc ≤ first + code.length := by
  induction reaches with
  | refl => exact enters
  | tail before steps _ =>
    have quads := (Reaches.program (ReachesWithin.reaches before)).1
    exact steps.stays closed (quads ▸ has)

/-- A closed block is left at its end. -/
theorem Leaves.pc_eq (has : code <+: m.program.quads.code.drop first)
    (enters : first ≤ m.pc ∧ m.pc ≤ first + code.length)
    (leaves : m.Leaves first (first + code.length) last) : last.pc = first + code.length := by
  have stays := leaves.reaches.stays closed has enters
  have outside := leaves.outside
  omega

theorem runWithin_crosses (has : code <+: m.program.quads.code.drop first)
    (enters : first ≤ m.pc ∧ m.pc ≤ first + code.length) (context : Context) (done fuel : Nat) :
    m.Crosses first (first + code.length) context done (Exec.runWithin context done fuel m) := by
  induction fuel generalizing done m with
  | zero =>
    by_cases exits : m.pc = first + code.length
    · exact .left ⟨.refl, by omega⟩ (.refl context done m) exits 0
    · exact .unfinished .refl (.refl context done m) (by omega)
  | succ fuel ih =>
    by_cases exits : m.pc = first + code.length
    · exact .left ⟨.refl, by omega⟩ (.refl context done m) exits _
    have within : first ≤ m.pc ∧ m.pc < first + code.length := by omega
    obtain ⟨inside, member⟩ := next_mem_of_within has within
    have goesOn := (closed _ member).goesOn
    obtain ⟨quiet, next, steps⟩ | ⟨halt, after, ends⟩ := steps_or_ends (context done) m
    · rw [runWithin_of_steps steps quiet]
      have here : m.StepsIn first (first + code.length) next := ⟨within, steps⟩
      exact .head here quiet (ih (steps.program.1 ▸ has) (here.stays closed has) (done + 1))
    · rw [runWithin_of_ends ends]
      cases ends with
      | halt _ halts => exact .ended .refl (.refl context done m) within goesOn halts.endsAt
      | interrupted _ _ called =>
        exact .ended .refl (.refl context done m) within goesOn (.interrupted called)
      | past outside | unflushed outside => exact absurd inside outside

end Machine

/-! ## Statements -/

/-- A statement that is read without an error appends a closed block: its jumps stay in it or lead to
its end, and so does every run that enters it. -/
theorem statement_appends_closed_block (s t : Session) (ran : Rule.statement s = .ok () t)
    (clean : t.syntaxErrors = s.syntaxErrors) (room : t.quads.size < t.quads.capacity) :
    t.quads.target = t.code.length ∧ ∃ code, t.code = s.code ++ code ∧
      (∀ q ∈ code, q.op ≠ .jindr ∧ (q.op.isJump = true →
        ∃ target : Nat, q.c = target ∧ s.code.length ≤ target ∧ target ≤ t.code.length)) ∧
      ∀ m : Machine, code <+: m.program.quads.code.drop s.code.length → m.pc = s.code.length →
        (∀ exit, m.Leaves s.code.length t.code.length exit → exit.pc = t.code.length) ∧
        ∀ context done fuel, m.Crosses s.code.length t.code.length context done
          (Exec.runWithin context done fuel m) := by
  have wrote := Leads.ok (Rule.statement_writes s) ran
  obtain ⟨code, written, _, block⟩ := wrote.appended clean room
  have length : t.code.length = s.code.length + code.length := by rw [written, List.length_append]
  refine ⟨Session.Room.target room, code, written, fun q member => ?_, fun m has enters => ?_⟩
  · rw [length]
    exact ⟨(block q member).direct, (block q member).jumps⟩
  · rw [length]
    have range : s.code.length ≤ m.pc ∧ m.pc ≤ s.code.length + code.length := by omega
    exact ⟨fun exit leaves => leaves.pc_eq block has range, Machine.runWithin_crosses block has range⟩

/-- If a rule returned: the errors counted by then, the quads that are stored and how many there can be. -/
def Rule.sizes? : EStateM.Result Abort Session Unit → Option (Nat × Nat × Nat)
  | .ok _ t => some (t.syntaxErrors, t.quads.size, t.quads.capacity)
  | .error .. => none

/-- A loop with two branches and another loop in it is written behind a quad. It takes the places from 1
on and is left at 11. -/
theorem nested_loop_leaves_at_its_end :
    let input := Input.ofString
      "while 2 > 1 do if 3 = 4 then writeln(5) else repeat writeln(6) until 7 < 8"
    let s : Session := { firstSession {} input with quads := (QuadTable.empty 40).add ⟨.jmp, 0, 0, 0⟩ }
    ∃ t, Rule.statement s = .ok () t ∧ t.syntaxErrors = s.syntaxErrors ∧
      t.quads.size < t.quads.capacity ∧ t.code.head? = some ⟨.jmp, 0, 0, 0⟩ ∧
      ∀ m : Machine, m.program.quads = t.quads → m.pc = 1 → ∀ exit, m.Leaves 1 11 exit → exit.pc = 11 := by
  intro input s
  obtain ⟨sizes, clean, code⟩ : Rule.sizes? (Rule.statement s) = some (0, 11, 40) ∧
      s.syntaxErrors = 0 ∧ s.code = [⟨.jmp, 0, 0, 0⟩] := by decide +kernel
  clear_value s
  cases ran : Rule.statement s with
  | error abort t =>
    rw [ran] at sizes
    cases sizes
  | ok value t =>
    rw [ran] at sizes
    simp only [Rule.sizes?, Option.some.injEq, Prod.mk.injEq] at sizes
    obtain ⟨errors, size, capacity⟩ := sizes
    have clean : t.syntaxErrors = s.syntaxErrors := errors.trans clean.symm
    have room : t.quads.size < t.quads.capacity := by omega
    obtain ⟨_, more, written, _, runs⟩ := statement_appends_closed_block s t ran clean room
    rw [code] at written runs
    refine ⟨t, rfl, clean, room, by rw [written]; rfl, fun m quads place exit leaves => ?_⟩
    have length : t.code.length = 11 := size
    have has : more <+: m.program.quads.code.drop 1 := by
      rw [quads, show t.quads.code = _ from written]
      exact List.prefix_rfl
    rw [length] at runs
    exact (runs m has place).1 exit leaves

end MiniPascal
