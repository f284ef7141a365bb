import MiniPascal.Proofs.Compiler.Reporting
import MiniPascal.Proofs.WellFormedCode

/-! # What grammar rules write

A rule that counts no error and leaves room for another quad has only appended quads. An expression appends
quads that lead to the next one. A statement appends a block: its jumps stay between its first quad and the
quad after its last. While a statement is being read, a jump forward has no target yet; the block is then
open at that one quad, and giving the jump its target closes the block. None of this depends on the session
in which the rule starts.
-/

namespace MiniPascal

/-! ## Blocks -/

/-- An operation that leads to the next quad and nowhere else. -/
def Opcode.isPlain (op : Opcode) : Bool := !op.isJump && op != .stop && op != .jindr

theorem Opcode.isPlain_of_isArithmetic {op : Opcode} (is : op.isArithmetic = true) : op.isPlain = true := by
  unfold Opcode.isArithmetic at is
  split at is <;> first | rfl | cases is

theorem Quad.Stays.of_isPlain {q : Quad} (plain : q.op.isPlain = true) (first last : Nat) :
    q.Stays first last := by
  rw [Opcode.isPlain, Bool.and_eq_true, Bool.and_eq_true, Bool.not_eq_true', bne_iff_ne, bne_iff_ne] at plain
  exact .of_plain plain.1.1 plain.1.2 plain.2

/-- A property of code at a place that two stretches of code share with the two together. -/
class Additive (R : Nat → List Quad → Prop) : Prop where
  nil : ∀ start, R start []
  append : ∀ {start first second}, R start first → R (start + first.length) second →
    R start (first ++ second)

/-- Code that leads through from its first quad to its last. -/
def Straight (_ : Nat) (code : List Quad) : Prop := ∀ q ∈ code, q.op.isPlain = true

/-- Code that is left at its end only. -/
def ClosedBlock (start : Nat) (code : List Quad) : Prop := ∀ q ∈ code, q.Stays start (start + code.length)

/-- A block but for the jump at `i`, which has no target yet. -/
def OpenBlock (i start : Nat) (code : List Quad) : Prop :=
  ∃ before q after, code = before ++ q :: after ∧ i = start + before.length ∧ q.op.isJump = true ∧
    ∀ p ∈ before ++ after, p.Stays start (start + code.length)

instance : Additive Straight :=
  ⟨fun _ => List.forall_mem_nil _, fun first second => List.forall_mem_append.mpr ⟨first, second⟩⟩

theorem Straight.block {start : Nat} {code : List Quad} (straight : Straight start code) :
    ClosedBlock start code :=
  fun q member => .of_isPlain (straight q member) _ _

instance : Additive ClosedBlock := by
  refine ⟨fun _ => List.forall_mem_nil _, fun first second => List.forall_mem_append.mpr ⟨?_, ?_⟩⟩
  · intro q member
    exact (first q member).widen (Nat.le_refl _) (by rw [List.length_append]; omega)
  · intro q member
    exact (second q member).widen (Nat.le_add_right _ _) (by rw [List.length_append]; omega)

namespace OpenBlock

variable {i start : Nat} {code more : List Quad}

theorem of_jump {q : Quad} (jump : q.op.isJump = true) : OpenBlock start start [q] :=
  ⟨[], q, [], rfl, rfl, jump, List.forall_mem_nil _⟩

theorem append (opened : OpenBlock i start code)
    (stays : ∀ p ∈ more, p.Stays start (start + (code ++ more).length)) :
    OpenBlock i start (code ++ more) := by
  obtain ⟨before, q, after, rfl, place, jump, inside⟩ := opened
  refine ⟨before, q, after ++ more, by simp, place, jump, ?_⟩
  rw [← List.append_assoc, List.forall_mem_append]
  have longer := (List.sublist_append_left (before ++ q :: after) more).length_le
  exact ⟨fun p member => (inside p member).widen (Nat.le_refl _) (by omega), stays⟩

theorem append_block (opened : OpenBlock i start code) (block : ClosedBlock (start + code.length) more) :
    OpenBlock i start (code ++ more) := by
  refine opened.append fun p member => (block p member).widen (Nat.le_add_right _ _) ?_
  rw [List.length_append]
  omega

/-- A block before an open one. -/
theorem after_block (block : ClosedBlock start code) (opened : OpenBlock i (start + code.length) more) :
    OpenBlock i start (code ++ more) := by
  obtain ⟨before, q, after, rfl, place, jump, inside⟩ := opened
  refine ⟨code ++ before, q, after, by simp, by rw [place, List.length_append, Nat.add_assoc], jump, ?_⟩
  have length : start + (code ++ (before ++ q :: after)).length =
      start + code.length + (before ++ q :: after).length := by rw [List.length_append]; omega
  rw [List.append_assoc, List.forall_mem_append, length]
  refine ⟨fun p member => (block p member).widen (Nat.le_refl _) (by omega), fun p member => ?_⟩
  exact (inside p member).widen (Nat.le_add_right _ _) (Nat.le_refl _)

end OpenBlock

/-! ## What was written between two sessions -/

namespace Session

variable {s t u : Session} {P Q : List Quad → Prop}

/-- If no error was counted on the way and there is room for another quad, quads with a property were
appended and nothing else was changed. -/
structure Wrote (s t : Session) (P : List Quad → Prop) : Prop where
  counts : s.syntaxErrors ≤ t.syntaxErrors
  appended : t.syntaxErrors = s.syntaxErrors → t.Room →
    ∃ code, t.code = s.code ++ code ∧ t.quads.capacity = s.quads.capacity ∧ P code

namespace Wrote

theorem of_same (quads : t.quads = s.quads) (errors : t.syntaxErrors = s.syntaxErrors) (nothing : P []) :
    s.Wrote t P :=
  ⟨Nat.le_of_eq errors.symm, fun _ _ => ⟨[], by rw [code, quads, List.append_nil], by rw [quads], nothing⟩⟩

/-- Where there is room at the end, there was room before. -/
theorem room (wrote : s.Wrote t P) (clean : t.syntaxErrors = s.syntaxErrors) (room : t.Room) : s.Room := by
  obtain ⟨code, written, capacity, _⟩ := wrote.appended clean room
  have length := congrArg List.length written
  rw [List.length_append, QuadTable.length_code, QuadTable.length_code] at length
  unfold Room at *
  omega

theorem mono (wrote : s.Wrote t P) (imp : ∀ code, s.Room → t.code = s.code ++ code → P code → Q code) :
    s.Wrote t Q := by
  refine ⟨wrote.counts, fun clean room => ?_⟩
  obtain ⟨code, written, capacity, holds⟩ := wrote.appended clean room
  exact ⟨code, written, capacity, imp code (wrote.room clean room) written holds⟩

theorem trans (first : s.Wrote t P) (second : t.Wrote u Q) : s.Wrote u fun code =>
    ∃ earlier later, code = earlier ++ later ∧ t.code = s.code ++ earlier ∧ P earlier ∧ Q later := by
  have counts := first.counts
  have counts' := second.counts
  refine ⟨Nat.le_trans counts counts', fun clean room => ?_⟩
  obtain ⟨later, written, capacity, holds'⟩ := second.appended (by omega) room
  obtain ⟨earlier, written', capacity', holds⟩ :=
    first.appended (by omega) (second.room (by omega) room)
  refine ⟨earlier ++ later, ?_, capacity.trans capacity', earlier, later, rfl, written', holds, holds'⟩
  rw [written, written', List.append_assoc]

theorem add {R : Nat → List Quad → Prop} [Additive R] (first : s.Wrote t (R s.code.length))
    (second : t.Wrote u (R t.code.length)) : s.Wrote u (R s.code.length) := by
  refine (first.trans second).mono ?_
  rintro _ _ _ ⟨earlier, later, rfl, written, holds, holds'⟩
  rw [written, List.length_append] at holds'
  exact Additive.append holds holds'

/-- What comes before the first quad changes nothing. -/
theorem of_start {R : Nat → List Quad → Prop} (quads : t.quads = s.quads)
    (errors : t.syntaxErrors = s.syntaxErrors) (wrote : t.Wrote u (R t.code.length)) :
    s.Wrote u (R s.code.length) := by
  have same : t.code = s.code := congrArg QuadTable.code quads
  refine ⟨errors ▸ wrote.counts, fun clean room => ?_⟩
  rw [← same, ← quads]
  exact wrote.appended (clean.trans errors.symm) room

theorem extend {i : Nat} (opened : s.Wrote t (OpenBlock i s.code.length))
    (wrote : t.Wrote u (ClosedBlock t.code.length)) : s.Wrote u (OpenBlock i s.code.length) := by
  refine (opened.trans wrote).mono ?_
  rintro _ _ _ ⟨earlier, later, rfl, written, before, after⟩
  rw [written, List.length_append] at after
  exact before.append_block after

theorem before_open {i : Nat} (wrote : s.Wrote t (ClosedBlock s.code.length))
    (opened : t.Wrote u (OpenBlock i t.code.length)) : s.Wrote u (OpenBlock i s.code.length) := by
  refine (wrote.trans opened).mono ?_
  rintro _ _ _ ⟨earlier, later, rfl, written, before, after⟩
  rw [written, List.length_append] at after
  exact after.after_block before

/-- A jump back to the first quad of a block. -/
theorem back {op : Opcode} {a b : Int} (wrote : s.Wrote t (ClosedBlock s.code.length))
    (emitted : t.Wrote u fun code => code = [⟨op, a, b, s.quads.target⟩]) (jump : op.isJump = true) :
    s.Wrote u (ClosedBlock s.code.length) := by
  refine (wrote.trans emitted).mono ?_
  rintro _ room _ ⟨earlier, _, rfl, _, block, rfl⟩
  rw [room.target, ClosedBlock, List.forall_mem_append, List.forall_mem_singleton, List.length_append]
  refine ⟨fun q member => (block q member).widen (Nat.le_refl _) (by omega), ?_⟩
  exact .of_jump jump (Nat.le_refl _) (Nat.le_add_right _ _)

/-- A jump back to the first quad of a block that is open. -/
theorem back_open {i : Nat} {op : Opcode} {a b : Int} (opened : s.Wrote t (OpenBlock i s.code.length))
    (emitted : t.Wrote u fun code => code = [⟨op, a, b, s.quads.target⟩]) (jump : op.isJump = true) :
    s.Wrote u (OpenBlock i s.code.length) := by
  refine (opened.trans emitted).mono ?_
  rintro _ room _ ⟨earlier, _, rfl, _, before, rfl⟩
  rw [room.target]
  exact before.append (List.forall_mem_singleton.mpr (.of_jump jump (Nat.le_refl _) (Nat.le_add_right _ _)))

end Wrote

/-- The session in which the quad at `i` was given another target. -/
def patched (s : Session) (i : Nat) (c : Int) : Session := { s with quads := s.quads.retarget i c }

theorem code_patched {i : Nat} {before after : List Quad} {q : Quad}
    (written : s.code = before ++ q :: after) (place : i = before.length) (c : Int) :
    (s.patched i c).code = before ++ { q with c } :: after := by
  change (s.quads.retarget i c).code = _
  rw [QuadTable.code_retarget, show s.quads.code = _ from written, place, List.modify_eq_take_drop]
  simp

theorem room_patched {i : Nat} {c : Int} (room : (s.patched i c).Room) : s.Room := by
  unfold Room patched at room
  rwa [QuadTable.size_retarget, QuadTable.capacity_retarget] at room

/-- The open jump comes to lead to the first quad of the block or past its last, and that closes the
block. -/
theorem Wrote.close {i : Nat} {c : Int} (wrote : s.Wrote t (OpenBlock i s.code.length))
    (leads : s.Room → t.Room → c = s.code.length ∨ c = t.code.length) :
    s.Wrote (t.patched i c) (ClosedBlock s.code.length) := by
  refine ⟨wrote.counts, fun clean room => ?_⟩
  have room' := room_patched room
  have target := leads (wrote.room clean room') room'
  obtain ⟨_, written, capacity, before, q, after, rfl, place, jump, stays⟩ := wrote.appended clean room'
  have length : t.code.length = s.code.length + (before ++ q :: after).length := by
    rw [written, List.length_append]
  rw [← List.append_assoc] at written
  refine ⟨before ++ { q with c } :: after, ?_, (QuadTable.capacity_retarget ..).trans capacity, ?_⟩
  · rw [code_patched written (by rw [place, List.length_append]), List.append_assoc]
  · have same : (before ++ { q with c } :: after).length = (before ++ q :: after).length := by simp
    obtain ⟨early, late⟩ := List.forall_mem_append.mp stays
    unfold ClosedBlock
    rw [same, List.forall_mem_append, List.forall_mem_cons]
    refine ⟨early, ?_, late⟩
    obtain rfl | rfl := target
    · exact .of_jump jump (Nat.le_refl _) (Nat.le_add_right _ _)
    · rw [length]
      exact .of_jump jump (Nat.le_add_right _ _) (Nat.le_refl _)

/-- A jump is written after an open block, and the block is closed behind it. Then that jump is open. -/
theorem Wrote.skip {i : Nat} {q : Quad} (wrote : s.Wrote t (OpenBlock i s.code.length))
    (emitted : t.Wrote u fun code => code = [q]) (jump : q.op.isJump = true) :
    s.Wrote (u.patched i u.quads.target) (OpenBlock t.code.length s.code.length) := by
  have both := wrote.trans emitted
  refine ⟨both.counts, fun clean room => ?_⟩
  have room' := room_patched room
  obtain ⟨_, written, capacity, _, _, rfl, place', ⟨before, r, after, rfl, place, jump', stays⟩, rfl⟩ :=
    both.appended clean room'
  have length : u.code.length = s.code.length + (before ++ r :: after).length + 1 := by
    rw [written, List.length_append, List.length_append]
    rfl
  have split : u.code = s.code ++ before ++ r :: (after ++ [q]) := by rw [written]; simp
  refine ⟨before ++ { r with c := u.quads.target } :: after ++ [q], ?_,
    (QuadTable.capacity_retarget ..).trans capacity, _, q, [], rfl, ?_, jump, ?_⟩
  · rw [code_patched split (by rw [place, List.length_append])]
    simp
  · rw [place', List.length_append]
    simp
  · obtain ⟨early, late⟩ := List.forall_mem_append.mp stays
    have same : s.code.length + (before ++ { r with c := u.quads.target } :: after ++ [q]).length =
        u.code.length := by
      rw [length]
      simp
      omega
    rw [List.append_nil, same, room'.target, List.forall_mem_append, List.forall_mem_cons]
    refine ⟨fun p member => (early p member).widen (Nat.le_refl _) (by omega), ?_,
      fun p member => (late p member).widen (Nat.le_refl _) (by omega)⟩
    exact .of_jump jump' (by omega) (Nat.le_refl _)

end Session

/-! ## Rules -/

namespace Rule

open Session

variable {α β : Type} {s : Session} {R : Nat → List Quad → Prop}

/-- A rule returns, if at all, with a value and a session that are `good`. -/
abbrev Returns (x : Rule α) (s : Session) (good : α → Session → Prop) : Prop :=
  Leads x s good fun _ _ => True

/-- What a rule writes has a property. -/
def Writes (R : Nat → List Quad → Prop) (x : Rule α) : Prop :=
  ∀ s, Returns x s fun _ t => s.Wrote t (R s.code.length)

/-- A rule writes nothing. -/
def Quiet (x : Rule α) : Prop :=
  ∀ s, Returns x s fun _ t => t.quads = s.quads ∧ t.syntaxErrors = s.syntaxErrors

theorem Returns.bind {x : Rule α} {f : α → Rule β} {first : α → Session → Prop}
    {good : β → Session → Prop} (returns : Returns x s first)
    (later : ∀ a t, first a t → Returns (f a) t good) : Returns (x >>= f) s good :=
  Leads.bind (returns.mono later fun _ _ _ => trivial)

namespace Quiet

theorem pure (a : α) : Quiet (pure a) := fun _ => Leads.of_pure ⟨rfl, rfl⟩

theorem bind {x : Rule α} {f : α → Rule β} (first : Quiet x) (second : ∀ a, Quiet (f a)) :
    Quiet (x >>= f) := by
  refine fun s => (first s).bind fun a t same => ((second a) t).mono (fun b u same' => ?_) fun _ _ => id
  exact ⟨same'.1.trans same.1, same'.2.trans same.2⟩

theorem get {f : Session → Rule α} (each : ∀ s, Quiet (f s)) : Quiet (get >>= f) :=
  fun s => Leads.get_bind (each s s)

theorem ite {condition : Prop} [Decidable condition] {x y : Rule α} (yes : Quiet x) (no : Quiet y) :
    Quiet (if condition then x else y) := by
  split
  · exact yes
  · exact no

theorem fail (diagnostic : Diagnostic) : Quiet (fail diagnostic : Rule α) :=
  fun _ => Leads.of_error rfl trivial

theorem failFull (diagnostic : Diagnostic) : Quiet (failFull diagnostic : Rule α) :=
  fun _ => Leads.of_error rfl trivial

theorem failExpecting (wanted : Text) : Quiet (failExpecting wanted : Rule α) :=
  get fun _ => fail _

theorem lookKind : Quiet lookKind := fun _ => Leads.of_ok rfl ⟨rfl, rfl⟩

theorem advance : Quiet advance := fun _ => Leads.of_ok rfl ⟨rfl, rfl⟩

theorem ask (read : SymbolTable → Except AccessError α) : Quiet (ask read) := by
  intro s
  cases answer : read s.symbols with
  | ok a => exact Leads.of_ok (ask_of_ok answer) ⟨rfl, rfl⟩
  | error error => exact Leads.of_error (ask_of_error answer) trivial

theorem expect (kind : TokenKind) : Quiet (expect kind) :=
  bind lookKind fun _ => ite advance (failExpecting _)

theorem symbol (name : Text) (value : Value) : Quiet (symbol name value) := by
  refine fun s => Leads.get_bind ?_
  split
  · exact Leads.of_ok rfl ⟨rfl, rfl⟩
  · exact failFull _ s

theorem constant (n : Int64) : Quiet (constant n) := symbol _ _

theorem temporary (kind : Kind) : Quiet (temporary kind) :=
  bind (fun _ => Leads.of_ok rfl ⟨rfl, rfl⟩) fun _ => get fun _ => symbol _ _

theorem registered : Quiet registered := by
  refine get fun s => ?_
  split
  · exact bind advance fun _ => pure _
  · exact failFull _

theorem traced (rule : Nonterminal) {body : Rule α} (inner : Quiet body) : Quiet (traced rule body) :=
  fun s => traced_leads (inner (s.entered rule))

theorem identifier : Quiet identifier := bind lookKind fun _ => ite registered (failExpecting _)

theorem variableUse : Quiet variableUse := by
  refine traced _ (get fun _ => bind identifier fun i => bind (ask _) fun _ => ite (fail _) fun s => ?_)
  refine Leads.get_bind ?_
  split
  · exact Leads.of_ok rfl ⟨rfl, rfl⟩
  · exact pure _ s

theorem literal : Quiet literal := traced _ registered

theorem resultKind (a b : Nat) : Quiet (resultKind a b) :=
  bind (ask _) fun _ => ite (bind (ask _) fun _ => ite (pure _) (pure _)) (pure _)

theorem countsDown : Quiet countsDown := by
  refine bind lookKind fun kind => ?_
  split
  · exact bind advance fun _ => pure _
  · exact bind advance fun _ => pure _
  · exact failExpecting _

theorem counterStep (down : Bool) (one : Nat) : Quiet (counterStep down one) :=
  ite (constant _) (pure _)

end Quiet

theorem emit_returns (op : Opcode) (a b c : Int) (s : Session) :
    Returns (emit op a b c) s fun i t => i = s.code.length ∧ s.Wrote t fun code => code = [⟨op, a, b, c⟩] := by
  refine Leads.get_bind ?_
  split
  · rename_i i next
    have place : i = s.code.length := by
      unfold QuadTable.next? at next
      split at next
      · cases next
      · exact (Option.some.inj next).symm
    refine Leads.of_ok rfl ⟨place, Nat.le_refl _, fun _ room => ?_⟩
    change (s.quads.add _).size < (s.quads.add _).capacity at room
    by_cases fits : s.quads.size < s.quads.capacity
    · exact ⟨_, QuadTable.code_add fits _, QuadTable.capacity_add _ _, rfl⟩
    · rw [QuadTable.add_of_full (Nat.not_lt.mp fits)] at room
      exact absurd room fits
  · exact Leads.of_error rfl trivial

namespace Writes

variable {x : Rule α} {f : α → Rule β}

theorem mono {S : Nat → List Quad → Prop} (writes : Writes R x)
    (imp : ∀ start code, R start code → S start code) : Writes S x :=
  fun s => (writes s).mono (fun _ _ wrote => wrote.mono fun _ _ _ => imp _ _) fun _ _ => id

theorem of_straight (writes : Writes Straight x) : Writes ClosedBlock x :=
  writes.mono fun _ _ => Straight.block

theorem emit {op : Opcode} {a b c : Int} (plain : op.isPlain = true) :
    Writes Straight (Rule.emit op a b c) := by
  refine fun s => (emit_returns op a b c s).mono (fun i t emitted => ?_) fun _ _ => id
  refine emitted.2.mono fun code _ _ here => ?_
  subst here
  exact List.forall_mem_singleton.mpr plain

theorem traced (rule : Nonterminal) (inner : Writes R x) : Writes R (traced rule x) :=
  fun s => traced_leads ((inner (s.entered rule)).mono
    (fun _ _ wrote => ⟨wrote.counts, wrote.appended⟩) fun _ _ => id)

variable [Additive R]

theorem quiet (quiet : Quiet x) : Writes R x :=
  fun s => (quiet s).mono (fun _ _ same => .of_same same.1 same.2 (Additive.nil _)) fun _ _ => id

theorem bind (first : Writes R x) (second : ∀ a, Writes R (f a)) : Writes R (x >>= f) :=
  fun s => (first s).bind fun a t wrote => (second a t).mono (fun _ _ => wrote.add) fun _ _ => id

theorem after (first : Quiet x) (second : ∀ a, Writes R (f a)) : Writes R (x >>= f) :=
  bind (quiet first) second

theorem iterate {step : α → Rule (Option α)} (each : ∀ a, Writes R (step a)) (fuel : Nat) (a : α) :
    Writes R (iterate step fuel a) := by
  induction fuel generalizing a with
  | zero => exact fun _ => Leads.of_error rfl trivial
  | succ fuel ih =>
    refine bind (each a) fun next => ?_
    cases next with
    | none => exact quiet (.pure a)
    | some b => exact ih b

theorem repeated {step : α → Rule (Option α)} (each : ∀ a, Writes R (step a)) (a : α) :
    Writes R (repeated step a) :=
  fun s => iterate each _ a s

end Writes

/-! ## Expressions -/

theorem arithmetic_writes {op : Opcode} (is : op.isArithmetic = true) (a b : Nat) :
    Writes Straight (arithmetic op a b) :=
  .after (.resultKind a b) fun kind => .after (.temporary kind) fun _ =>
    .bind (.emit (Opcode.isPlain_of_isArithmetic is)) fun _ => .quiet (.pure _)

section Nested

variable {inner : Rule Nat} (writes : Writes Straight inner)

include writes

theorem factor_writes : Writes Straight (factor inner) := by
  refine .traced _ (.after .lookKind fun kind => ?_)
  split
  · exact .quiet .literal
  · exact .quiet .literal
  · exact .quiet .variableUse
  · exact .after .advance fun _ => .bind writes fun _ => .after (.expect _) fun _ => .quiet (.pure _)
  · exact .quiet (.failExpecting _)

theorem operation_writes {operation? : TokenKind → Option Opcode}
    (calculates : ∀ kind op, operation? kind = some op → op.isArithmetic = true) (left : Nat) :
    Writes Straight (operation operation? inner left) := by
  refine .after .lookKind fun kind => ?_
  split
  · exact .quiet (.pure _)
  · rename_i op found
    exact .after .advance fun _ => .bind writes fun _ =>
      .bind (arithmetic_writes (calculates kind op found) _ _) fun _ => .quiet (.pure _)

theorem term_writes : Writes Straight (term inner) := by
  refine .traced _ (.bind (factor_writes writes) (.repeated (operation_writes (factor_writes writes) ?_)))
  intro kind op found
  unfold factorOperation? at found
  split at found <;> cases found <;> rfl

theorem signedTerm_writes : Writes Straight (signedTerm inner) := by
  refine .after .lookKind fun kind => ?_
  split
  · exact .after .advance fun _ => writes
  · exact .after .advance fun _ => .bind writes fun _ => .after (.constant _) fun _ =>
      arithmetic_writes rfl _ _
  · exact writes

theorem simpleExpression_writes : Writes Straight (simpleExpression inner) := by
  refine .traced _ (.bind (signedTerm_writes (term_writes writes))
    (.repeated (operation_writes (term_writes writes) ?_)))
  intro kind op found
  unfold termOperation? at found
  split at found <;> cases found <;> rfl

end Nested

theorem expressionWithin_writes (fuel : Nat) : Writes Straight (expressionWithin fuel) := by
  induction fuel with
  | zero => exact fun _ => Leads.of_error rfl trivial
  | succ fuel ih => exact simpleExpression_writes ih

theorem expression_writes : Writes Straight expression := by
  intro s
  have within := expressionWithin_writes (s.unread.length + 2) s
  unfold Returns Leads at *
  rwa [expression_eq]

theorem operand_writes : Writes Straight operand := by
  refine .after .lookKind fun _ => ?_
  split
  · exact .quiet .literal
  · exact expression_writes

theorem isJump_of_falseJump {kind : TokenKind} {op : Opcode} (found : falseJump? kind = some op) :
    op.isJump = true := by
  unfold falseJump? at found
  split at found <;> cases found <;> rfl

/-- A rule writes a block that is open at the quad it returns. -/
def Opens (x : Rule Nat) : Prop := ∀ s, Returns x s fun i t => s.Wrote t (OpenBlock i s.code.length)

theorem Opens.after {x : Rule α} {f : α → Rule Nat} (first : Writes Straight x)
    (second : ∀ a, Opens (f a)) : Opens (x >>= f) := by
  refine fun s => (first s).bind fun a t wrote => (second a t).mono (fun i u opened => ?_) fun _ _ => id
  exact (wrote.mono fun _ _ _ => Straight.block).before_open opened

theorem Opens.emit {op : Opcode} (jump : op.isJump = true) (a b c : Int) : Opens (emit op a b c) := by
  refine fun s => (emit_returns op a b c s).mono (fun i t emitted => ?_) fun _ _ => id
  obtain ⟨rfl, wrote⟩ := emitted
  refine wrote.mono fun code _ _ here => ?_
  subst here
  exact .of_jump jump

theorem Opens.traced (rule : Nonterminal) {x : Rule Nat} (inner : Opens x) : Opens (traced rule x) :=
  fun s => traced_leads ((inner (s.entered rule)).mono
    (fun _ _ wrote => ⟨wrote.counts, wrote.appended⟩) fun _ _ => id)

/-- A relation writes straight code and a jump behind it, which has no target yet. -/
theorem relExpression_opens : Opens relExpression := by
  refine .traced _ (.after expression_writes fun left => .after (.quiet .lookKind) fun kind => ?_)
  split
  · exact fun _ => Leads.of_error rfl trivial
  · rename_i jump found
    exact .after (.quiet .advance) fun _ => .after expression_writes fun _ =>
      .after (arithmetic_writes rfl _ _) fun _ => .emit (isJump_of_falseJump found) _ _ _

/-! ## Statements -/

theorem assignment_writes : Writes ClosedBlock assignment :=
  .of_straight (.traced _ (.after .variableUse fun _ => .after (.expect _) fun _ =>
    .bind operand_writes fun _ => .bind (.emit rfl) fun _ => .quiet (.pure _)))

theorem writeln_writes : Writes ClosedBlock writeln :=
  .of_straight (.traced _ (.after .advance fun _ => .after (.expect _) fun _ =>
    .bind operand_writes fun _ => .after (.expect _) fun _ =>
    .bind (.emit rfl) fun _ => .quiet (.pure _)))

theorem readln_writes : Writes ClosedBlock readln :=
  .of_straight (.traced _ (.after .advance fun _ => .after (.expect _) fun _ =>
    .after .variableUse fun _ => .after (.expect _) fun _ =>
    .bind (.emit rfl) fun _ => .quiet (.pure _)))

theorem Returns.nextQuad {f : Int → Rule α} {good : α → Session → Prop}
    (later : Returns (f s.quads.target) s good) : Returns (nextQuad >>= f) s good := later

theorem Returns.patch {i : Nat} {c : Int} {f : Unit → Rule α} {good : α → Session → Prop}
    (later : Returns (f ()) (s.patched i c) good) : Returns (patch i c >>= f) s good := later

section Nested

variable {inner : Rule Unit} (writes : Writes ClosedBlock inner)

include writes

theorem statements_writes : Writes ClosedBlock (statements inner) := by
  refine .bind writes (.repeated fun _ => .after .lookKind fun kind => ?_)
  split
  · exact .after .advance fun _ => .bind writes fun _ => .quiet (.pure _)
  · exact .quiet (.pure _)

theorem blockBody_writes : Writes ClosedBlock (blockBody inner) :=
  .traced _ (.after (.expect _) fun _ => .bind (statements_writes writes) fun _ => .quiet (.expect _))

/-- A relation, a word, and a statement that runs if the relation is true. -/
theorem guarded_returns (kind : TokenKind) {next : Nat → Rule α} {good : α → Session → Prop}
    (later : ∀ test t, s.Wrote t (OpenBlock test s.code.length) → Returns (next test) t good) :
    Returns (do
      let test ← relExpression
      expect kind
      inner
      next test) s good := by
  refine (relExpression_opens s).bind fun test t opened => ?_
  refine (Quiet.expect kind t).bind fun _ u same => ?_
  refine (writes u).bind fun _ v wrote => later test v ?_
  exact opened.extend (wrote.of_start same.1 same.2)

theorem ifStatement_writes : Writes ClosedBlock (ifStatement inner) := by
  refine .traced _ (.after .advance fun _ s => guarded_returns writes _ fun test t opened => ?_)
  refine (Quiet.lookKind t).bind fun kind u same => ?_
  have looked := opened.extend (.of_same same.1 same.2 (Additive.nil _))
  split
  · refine (Quiet.advance u).bind fun _ v same' => ?_
    have advanced := looked.extend (.of_same same'.1 same'.2 (Additive.nil _))
    refine (emit_returns .jmp 0 0 unknownTarget v).bind fun skip w emitted => ?_
    obtain ⟨rfl, emitted⟩ := emitted
    have skipped := advanced.skip emitted rfl
    refine .nextQuad (.patch ((writes _).bind fun _ x wrote => .nextQuad ?_))
    exact Leads.of_ok rfl ((skipped.extend wrote).close fun _ room => .inr room.target)
  · exact .nextQuad (Leads.of_ok rfl (looked.close fun _ room => .inr room.target))

theorem whileStatement_writes : Writes ClosedBlock (whileStatement inner) := by
  refine .traced _ (.after .advance fun _ s => .nextQuad (guarded_returns writes _ fun test t opened => ?_))
  refine (emit_returns .jmp 0 0 s.quads.target t).bind fun _ u emitted => ?_
  exact .nextQuad (Leads.of_ok rfl ((opened.back_open emitted.2 rfl).close fun _ room => .inr room.target))

theorem repeatStatement_writes : Writes ClosedBlock (repeatStatement inner) := by
  refine .traced _ (.after .advance fun _ s => .nextQuad ?_)
  refine (statements_writes writes s).bind fun _ t wrote => ?_
  refine (Quiet.expect _ t).bind fun _ u same => (relExpression_opens u).bind fun test v opened => ?_
  have expected := wrote.add (.of_same same.1 same.2 (Additive.nil _))
  exact Leads.of_ok rfl ((expected.before_open opened).close fun room _ => .inl room.target)

theorem countingLoop_writes {down : Bool} {counter start limit step bound distance : Nat} :
    Writes ClosedBlock (countingLoop inner down counter start limit step bound distance) := by
  refine .bind (.of_straight (.emit rfl)) fun _ => ?_
  refine .bind (.of_straight (.emit rfl)) fun _ => ?_
  refine .bind (.of_straight (.emit rfl)) fun _ s => ?_
  refine (Opens.emit rfl _ _ _ s).bind fun guard t opened => .nextQuad ?_
  refine (writes t).bind fun _ u wrote => ?_
  refine (Writes.of_straight (.emit rfl) u).bind fun _ v counted => ?_
  refine (Writes.of_straight (.emit rfl) v).bind fun _ w measured => ?_
  refine (emit_returns .jnn distance 0 t.quads.target w).bind fun _ x emitted => .nextQuad ?_
  -- the quads that are repeated are a block of their own within the one that the guard opens
  have pass := ((wrote.add counted).add measured).back emitted.2 rfl
  exact Leads.of_ok rfl ((opened.extend pass).close fun _ room => .inr room.target)

theorem forStatement_writes : Writes ClosedBlock (forStatement inner) := by
  refine .traced _ (.after .advance fun _ => .after .variableUse fun _ => .after (.expect _) fun _ => ?_)
  refine .bind (.of_straight expression_writes) fun _ => .after .countsDown fun _ => ?_
  refine .bind (.of_straight expression_writes) fun _ => .after (.expect _) fun _ => ?_
  refine .after (.constant _) fun _ => .after (.counterStep _ _) fun _ => .after (.ask _) fun _ => ?_
  refine .after (.temporary _) fun _ => .after (.resultKind _ _) fun _ => .after (.temporary _) fun _ => ?_
  exact countingLoop_writes writes

theorem dispatch_writes : Writes ClosedBlock (dispatch inner) := by
  refine .after .lookKind fun kind => ?_
  split
  · exact assignment_writes
  · exact blockBody_writes writes
  · exact ifStatement_writes writes
  · exact whileStatement_writes writes
  · exact repeatStatement_writes writes
  · exact forStatement_writes writes
  · exact writeln_writes
  · exact readln_writes
  · exact .quiet (.pure _)
  · exact .quiet (.pure _)
  · exact .quiet (.failExpecting _)

end Nested

/-- A statement that is tried again has counted an error, so nothing is said of what it writes. -/
theorem recovering_writes {body again : Rule Unit} (inner : Writes R body)
    (counts : ∀ s, Accounts body s) (later : ∀ s, Accounts again s) : Writes R (recovering body again) := by
  intro s
  obtain ⟨t, ran, goes⟩ | ⟨_, t, _, _, goes⟩ | ⟨t, u, _, _, _, goes⟩ | ⟨t, u, ran, _, skips, goes⟩ :=
    recovering_cases body again s
  · exact Leads.of_ok goes ((inner s).ok ran)
  · exact Leads.of_error goes trivial
  · exact Leads.of_error goes trivial
  · have counted : s.syntaxErrors < u.syntaxErrors :=
      Nat.lt_of_lt_of_le (((counts s).error ran).2 rfl) skips.grows
    unfold Returns Leads
    rw [goes]
    refine (later u).mono (fun _ v reports => ?_) fun _ _ _ => trivial
    have more := Nat.lt_of_lt_of_le counted reports.grows
    exact ⟨Nat.le_of_lt more, fun clean => absurd clean (Nat.ne_of_gt more)⟩

theorem attemptWithin_writes (fuel : Nat) : Writes ClosedBlock (attemptWithin fuel) := by
  induction fuel with
  | zero => exact fun _ => Leads.of_error rfl trivial
  | succ fuel ih =>
    have composed : Composed (attemptWithin fuel) := .attemptWithin fuel
    exact recovering_writes (dispatch_writes (.traced _ ih))
      (Composed.dispatch (.traced _ composed)).accounts composed.accounts

theorem statement_writes : Writes ClosedBlock statement := by
  intro s
  have within := Writes.traced .statement (attemptWithin_writes (s.unread.length + 2)) s
  unfold Returns Leads at *
  rwa [statement_eq]

end Rule

end MiniPascal
