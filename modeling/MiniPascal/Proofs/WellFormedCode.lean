import MiniPascal.Proofs.Compiler.Acceptance
import MiniPascal.Proofs.Machine.Runs

/-! # Compiled code is well formed

Whatever comes of a compilation, each quad that it stored has an operation of the machine and operands
that are cells. The code of a statement neither stops nor jumps through a cell, and its jumps stay
between its first quad and the quad after its last. An accepted program is the code of its statements
followed by one `STOP`, so no run of it goes past its last quad.
-/

namespace MiniPascal

/-! ## Jumps stay within a statement -/

/-- A quad that does not stop, and leads nowhere but to the quads from `first` to `last`. -/
structure Quad.Stays (first last : Nat) (q : Quad) : Prop where
  goesOn : q.op ≠ .stop
  direct : q.op ≠ .jindr
  jumps : q.op.isJump = true → ∃ target : Nat, q.c = target ∧ first ≤ target ∧ target ≤ last

namespace Quad.Stays

variable {first last : Nat} {q : Quad}

theorem widen {first' last' : Nat} (stays : q.Stays first last) (lower : first' ≤ first)
    (upper : last ≤ last') : q.Stays first' last' := by
  refine ⟨stays.goesOn, stays.direct, fun jump => ?_⟩
  obtain ⟨target, same, le, ge⟩ := stays.jumps jump
  exact ⟨target, same, by omega, by omega⟩

/-- A quad that is no jump leads to the next one. -/
theorem of_plain (plain : q.op.isJump = false) (goesOn : q.op ≠ .stop) (direct : q.op ≠ .jindr) :
    q.Stays first last :=
  ⟨goesOn, direct, fun jump => by rw [plain] at jump; cases jump⟩

theorem of_jump {op : Opcode} {a b : Int} {target : Nat} (jump : op.isJump = true)
    (lower : first ≤ target) (upper : target ≤ last) : Stays first last ⟨op, a, b, target⟩ := by
  refine ⟨?_, ?_, fun _ => ⟨target, rfl, lower, upper⟩⟩
  · rintro rfl
    cases jump
  · rintro rfl
    cases jump

end Quad.Stays

namespace Syntax

variable {table : SymbolTable}

theorem Operator.stays (op : Operator) (a b c : Int) (first last : Nat) :
    Quad.Stays first last ⟨op.opcode, a, b, c⟩ := by
  cases op <;> exact .of_plain rfl (by simp [opcode]) (by simp [opcode])

theorem Expr.Laid.stays {e : Expr} {lo hi i : Nat} {code : List Quad} (laid : e.Laid table lo hi code i)
    (first last : Nat) : ∀ q ∈ code, q.Stays first last := by
  induction laid with
  | literal | var =>
    intro q member
    cases member
  | negated _ _ _ ih =>
    rw [List.forall_mem_append, List.forall_mem_singleton]
    exact ⟨ih, Operator.mul.stays _ _ _ _ _⟩
  | @operation op _ _ _ _ _ _ _ _ _ _ _ _ _ ihLeft ihRight =>
    rw [List.forall_mem_append, List.forall_mem_append, List.forall_mem_singleton]
    exact ⟨ihLeft, ihRight, op.stays _ _ _ _ _⟩

theorem Stmt.Laid.stays {s : Stmt} {lo hi base : Nat} {code : List Quad}
    (laid : s.Laid table lo hi base code) : ∀ q ∈ code, q.Stays base (base + code.length) := by
  induction laid with
  | empty =>
    intro q member
    cases member
  | sequence _ _ ih ih' =>
    rw [List.forall_mem_append, List.length_append]
    exact ⟨fun q member => (ih q member).widen (by omega) (by omega),
      fun q member => (ih' q member).widen (by omega) (by omega)⟩
  | assignment _ source =>
    rw [List.forall_mem_append, List.forall_mem_singleton]
    exact ⟨source.stays _ _, .of_plain rfl (by simp) (by simp)⟩
  | @ifThen r _ _ _ _ _ _ _ _ test _ ih =>
    rw [List.forall_mem_append, List.forall_mem_cons, List.length_append, List.length_cons]
    exact ⟨test.stays _ _, .of_jump r.comparison.isJump_falseJump (by omega) (by omega),
      fun q member => (ih q member).widen (by omega) (by omega)⟩
  | @ifElse r _ _ _ _ _ _ _ _ _ _ _ test _ _ ih ih' =>
    simp only [List.forall_mem_append, List.forall_mem_cons, List.length_append, List.length_cons]
    exact ⟨test.stays _ _, .of_jump r.comparison.isJump_falseJump (by omega) (by omega),
      fun q member => (ih q member).widen (by omega) (by omega),
      .of_jump rfl (by omega) (by omega),
      fun q member => (ih' q member).widen (by omega) (by omega)⟩
  | @whileLoop r _ _ _ _ _ _ _ _ test _ ih =>
    simp only [List.forall_mem_append, List.forall_mem_cons, List.not_mem_nil, false_imp_iff,
      implies_true, and_true, List.length_append, List.length_cons, List.length_nil]
    exact ⟨test.stays _ _, .of_jump r.comparison.isJump_falseJump (by omega) (by omega),
      fun q member => (ih q member).widen (by omega) (by omega),
      .of_jump rfl (by omega) (by omega)⟩
  | @repeatLoop r _ _ _ _ _ _ _ _ _ test ih =>
    simp only [List.forall_mem_append, List.forall_mem_singleton, List.length_append,
      List.length_singleton]
    exact ⟨fun q member => (ih q member).widen (by omega) (by omega), test.stays _ _,
      .of_jump r.comparison.isJump_falseJump (by omega) (by omega)⟩
  | forLoop _ starts upTo _ _ _ _ _ ih =>
    simp only [List.forall_mem_append, List.forall_mem_cons, List.not_mem_nil, false_imp_iff,
      implies_true, and_true, List.length_append, List.length_cons, List.length_nil]
    refine ⟨starts.stays _ _, upTo.stays _ _,
      ⟨.of_plain rfl (by simp) (by simp), .of_plain rfl (by simp) (by simp), Operator.sub.stays _ _ _ _ _,
        .of_jump rfl (by omega) (by omega)⟩,
      fun q member => (ih q member).widen (by omega) (by omega),
      Operator.add.stays _ _ _ _ _, Operator.sub.stays _ _ _ _ _, .of_jump rfl (by omega) (by omega)⟩
  | writeln value =>
    rw [List.forall_mem_append, List.forall_mem_singleton]
    exact ⟨value.stays _ _, .of_plain rfl (by simp) (by simp)⟩
  | readln =>
    rw [List.forall_mem_singleton]
    exact .of_plain rfl (by simp) (by simp)

end Syntax

/-! ## Runs stay within the code -/

namespace Machine

/-- A failure that a device or the source of integers reports while the next quad is executed. -/
def Reports (m : Machine) (failure : Failure) : Prop :=
  (∃ bytes, (m.ready.console.write bytes).1.failure = some failure) ∨
    m.ready.console.flush.1 = some failure ∨ ∃ name, (m.answered name).1 = .error failure

/-- How a run ends at the quad it executes last: at a `STOP`, at a fault or an access that breaks it off,
with a failure of a device or of the source of integers, or by an interruption. -/
inductive EndsAt (interruption : Option Failure) (last : Machine) : Halt → Prop
  | stop {failure : Option Failure} (is : last.next.op = .stop) :
      EndsAt interruption last (.stopped failure)
  | fault (cause : Failure) : EndsAt interruption last (.stopped (some (.fault last.pc last.next cause)))
  | access (error : AccessError) : EndsAt interruption last (.crashed error)
  | reported {failure : Failure} (reports : last.Reports failure) :
      EndsAt interruption last (.stopped (some failure))
  | interrupted {failure : Failure} (called : interruption = some failure) :
      EndsAt interruption last (.stopped (some failure))

variable {m last after : Machine} {interruption : Option Failure}

theorem endsAt_of_trouble {stuck : Machine} (pc : stuck.current = last.pc) (quad : stuck.quad = last.next)
    (trouble : Trouble) : last.EndsAt interruption (stuck.ending trouble).1 := by
  cases trouble with
  | fault cause =>
    have same : stuck.faultBy cause = .fault last.pc last.next cause := by rw [faultBy, pc, quad]
    rw [ending, same]
    exact .fault cause
  | crash error => exact .access error

theorem Halts.endsAt {halt : Halt} (halts : last.Halts halt after) : last.EndsAt interruption halt := by
  cases halts with
  | limit reached => exact endsAt_of_trouble rfl rfl _
  | stop within does =>
    cases Quad.does_of_action does with
    | stop is => exact .stop is
  | trouble within does => exact endsAt_of_trouble last.current_ready last.quad_ready _
  | badJump within does bad => exact endsAt_of_trouble last.current_ready last.quad_ready _
  | unshown within does fails => exact .reported (.inl ⟨_, fails⟩)
  | unflushed within does fails => exact .reported (.inr (.inl fails))
  | unnamed within does clear missing => exact .access _
  | unanswered within does clear named fails => exact .reported (.inr (.inr ⟨_, fails⟩))
  | @unstored _ name _ _ within does clear named answers fails =>
    have same := last.sameState_answered name
    exact endsAt_of_trouble (same.current.trans last.current_ready)
      (same.quad.trans last.quad_ready) _

/-- The code of a program that ends with its only `STOP`, and whose jumps stay within it. -/
def Confined (quads : QuadTable) : Prop :=
  ∃ code, quads.code = code ++ [⟨.stop, 0, 0, 0⟩] ∧ ∀ q ∈ code, q.Stays 0 code.length

/-- A step does not leave confined code: the quad after the last but one is the `STOP`. -/
theorem Steps.inside (steps : m.Steps after) (confined : Confined m.program.quads)
    (inside : m.Inside) : after.Inside := by
  obtain ⟨code, written, stays⟩ := confined
  have size : m.program.quads.size = code.length + 1 := by
    rw [← QuadTable.length_code, written, List.length_append, List.length_singleton]
  have next {q : Quad} (here : m.program.quads.code[m.pc]? = some q) : m.next = q :=
    QuadTable.get_of_code here
  unfold Inside at *
  rw [steps.program.1]
  have before : m.pc < code.length := by
    by_contra last
    have stop : m.next = ⟨.stop, 0, 0, 0⟩ := by
      apply next
      rw [written, List.getElem?_append_right (by omega), show m.pc - code.length = 0 by omega]
      rfl
    exact steps.ne_stop (by rw [stop])
  have quad : m.next ∈ code := by
    have here : m.next = code[m.pc] := by
      apply next
      rw [written, List.getElem?_append_left before, List.getElem?_eq_getElem before]
    exact here ▸ List.getElem_mem before
  obtain plain | ⟨jump, same⟩ | through := steps.pc
  · omega
  · obtain ⟨target, here, _, upper⟩ := (stays _ quad).jumps jump
    omega
  · exact absurd through (stays _ quad).direct

theorem Reaches.inside (reaches : m.Reaches last) (confined : Confined m.program.quads)
    (inside : m.Inside) : last.Inside := by
  induction reaches with
  | refl => exact inside
  | tail before steps ih => exact steps.inside ((Reaches.program before).1 ▸ confined) ih

/-- A run of confined code ends at one of its quads. -/
theorem runWithin_confined (confined : Confined m.program.quads) (inside : m.Inside)
    (context : Context) (fuel : Nat) :
    Leads (Exec.runWithin context 0 fuel) m (fun _ _ => False) fun halt _ =>
      halt = .outOfFuel ∨
      ∃ n last, Goes context 0 n m last ∧ last.Inside ∧ last.EndsAt (context n) halt := by
  apply (runWithin_ends context fuel 0 m).mono
  · rintro _ after ⟨_, goes, ends⟩
    have stays := Reaches.inside goes.reaches confined inside
    cases ends with
    | past outside => exact outside stays
  · rintro halt after (⟨rfl, _⟩ | ⟨_, goes, ends⟩)
    · exact .inl rfl
    · have stays := Reaches.inside goes.reaches confined inside
      rw [Nat.zero_add] at ends
      refine .inr ⟨_, _, goes, stays, ?_⟩
      cases ends with
      | halt _ halts => exact halts.endsAt
      | interrupted _ _ called => exact .interrupted called
      | unflushed outside => exact absurd stays outside

end Machine

/-! ## What a compilation yields -/

variable {options : CompileOptions} {input : Input}

theorem compile_sound :
    ∀ q ∈ (compile options input).program.quads.code,
      q.WellFormed (compile options input).program.symbols.size := by
  obtain ⟨t, moves, tables⟩ := compile_moves options input
  have start : (firstSession options input).Sound := by
    intro q member
    cases member
  rw [tables]
  exact moves.sound start

theorem compile_confined (accepted : (compile options input).verdict = .accepted) :
    Machine.Confined (compile options input).program.quads := by
  obtain ⟨⟨p, rest, spelled⟩, builds⟩ := built_of_accepted accepted
  obtain ⟨t, built, _⟩ := builds p rest spelled
  obtain ⟨code, written, laid⟩ := built.code
  refine ⟨code, ?_, fun q member => ?_⟩
  · rw [built.tables]
    exact written
  · have stays := laid.stays q member
    rwa [Nat.zero_add] at stays

/-- Every stored quad is well formed. In an accepted program jumps lead to quads and only the last quad
is a `STOP`, so no run goes past the last quad. -/
theorem compile_yields_wellFormed_code (options : CompileOptions) (input : Input) :
    (∀ q ∈ (compile options input).program.quads.code,
      q.WellFormed (compile options input).program.symbols.size) ∧
    ((compile options input).verdict = .accepted →
      (∀ q ∈ (compile options input).program.quads.code, q.op.isJump = true →
        ∃ target : Nat, q.c = target ∧ target < (compile options input).program.quads.size) ∧
      (∃ code, (compile options input).program.quads.code = code ++ [⟨.stop, 0, 0, 0⟩] ∧
        ∀ q ∈ code, q.op ≠ .stop) ∧
      ∀ (m : Machine) (context : Context) (fuel : Nat),
        m.program.quads = (compile options input).program.quads →
        (∀ after, Exec.runWithin context 0 fuel m.rewind ≠ .ok () after) ∧
        ∀ halt after, Exec.runWithin context 0 fuel m.rewind = .error halt after →
          halt = .outOfFuel ∨ ∃ n last, Machine.Goes context 0 n m.rewind last ∧ last.Inside ∧
            last.EndsAt (context n) halt) := by
  refine ⟨compile_sound, fun accepted => ?_⟩
  obtain ⟨code, written, stays⟩ := compile_confined accepted
  have size : (compile options input).program.quads.size = code.length + 1 := by
    rw [← QuadTable.length_code, written, List.length_append, List.length_singleton]
  refine ⟨fun q member jump => ?_, ⟨code, written, fun q member => (stays q member).goesOn⟩, ?_⟩
  · rw [written] at member
    obtain member | last := List.mem_append.mp member
    · obtain ⟨target, same, _, upper⟩ := (stays q member).jumps jump
      exact ⟨target, same, by omega⟩
    · obtain rfl := List.mem_singleton.mp last
      cases jump
  · intro m context fuel quads
    have confined : Machine.Confined m.rewind.program.quads :=
      quads ▸ compile_confined accepted
    have inside : m.rewind.Inside := by
      change 0 < m.program.quads.size
      rw [quads, size]
      exact Nat.succ_pos _
    have leads := Machine.runWithin_confined confined inside context fuel
    refine ⟨fun after ran => Leads.ok leads ran, fun halt after ran => ?_⟩
    have ends := Leads.error leads ran
    exact ends

end MiniPascal
