import MiniPascal.Proofs.Compiler.Moves
import MiniPascal.Proofs.Computation

/-! # What comes of a grammar rule

`Rule.Does` speaks about every outcome of a rule: the session it ends with is reached by moves, a
value it returns satisfies a result, and a rule that breaks off has reported an error or used up its
fuel. It never breaks off because it read a cell that is not there or has another kind. The lemmas
here compose such statements along the structure of a rule and give them for the rules that write
quads and symbols.
-/

namespace MiniPascal.Rule

open Session

variable {α β : Type} {declaring : Prop} {s : Session}

/-- How a rule may break off: with an error that was reported, or out of fuel. -/
def Excused (errors : Nat) : Abort → Prop
  | .gaveUp => errors ≠ 0
  | .crashed _ => False
  | .outOfFuel => True

/-- Whatever comes of a rule is reached by moves; a returned value has the stated result, and breaking
off is excused. -/
def Does (declaring : Prop) (rule : Rule α) (s : Session) (result : α → Session → Prop) : Prop :=
  s.Valid →
    Leads rule s (fun a t => Moves declaring s t ∧ result a t)
      fun abort t => Moves declaring s t ∧ Excused t.syntaxErrors abort

namespace Does

variable {rule : Rule α} {next : α → Rule β} {result result' : α → Session → Prop}
variable {after : β → Session → Prop}

theorem of_pure {a : α} (holds : result a s) : Does declaring (pure a) s result :=
  fun _ => .of_pure ⟨.refl, holds⟩

theorem of_valid (does : s.Valid → Does declaring rule s result) : Does declaring rule s result :=
  fun valid => does valid valid

theorem of_eq {other : Rule α} (same : rule s = other s) (does : Does declaring other s result) :
    Does declaring rule s result := by
  intro valid
  have lead := does valid
  unfold Leads at *
  rwa [same]

theorem of_outOfFuel : Does declaring (throw .outOfFuel) s result :=
  fun _ => .of_throw ⟨.refl, trivial⟩

/-- One rule after another. -/
theorem bind (first : Does declaring rule s result)
    (second : ∀ a t, Moves declaring s t → t.Valid → result a t →
      Does declaring (next a) t after) :
    Does declaring (rule >>= next) s after := by
  intro valid
  refine .bind ((first valid).mono ?_ fun _ _ broken => broken)
  rintro a t ⟨moves, holds⟩
  have valid' := moves.valid valid
  refine (second a t moves valid' holds valid').mono ?_ ?_
  · rintro b u ⟨moves', holds'⟩
    exact ⟨moves.trans moves', holds'⟩
  · rintro abort u ⟨moves', reported⟩
    exact ⟨moves.trans moves', reported⟩

theorem mono (first : Does declaring rule s result)
    (imp : ∀ a t, s.Valid → Moves declaring s t → result a t → result' a t) :
    Does declaring rule s result' := by
  intro valid
  refine (first valid).mono ?_ fun _ _ broken => broken
  rintro a t ⟨moves, holds⟩
  exact ⟨moves, imp a t valid moves holds⟩

/-- A rule that declares nothing, where declarations are allowed. -/
theorem weaken (first : Does False rule s result) :
    Does declaring rule s fun a t => Moves False s t ∧ result a t := by
  intro valid
  refine (first valid).mono ?_ ?_
  · rintro a t ⟨moves, holds⟩
    exact ⟨moves.weaken, moves, holds⟩
  · rintro abort t ⟨moves, reported⟩
    exact ⟨moves.weaken, reported⟩

theorem get_bind {next : Session → Rule β} (first : Does declaring (next s) s after) :
    Does declaring (get >>= next) s after :=
  fun valid => .get_bind (first valid)

theorem lookKind_bind {next : TokenKind → Rule β} (first : Does declaring (next s.look.kind) s after) :
    Does declaring (lookKind >>= next) s after :=
  first

theorem nextQuad_bind {next : Int → Rule β} (first : Does declaring (next s.quads.target) s after) :
    Does declaring (nextQuad >>= next) s after :=
  first

/-- A change that is one move. -/
theorem of_move {change : Session → Session} (move : Move declaring s (change s)) :
    Does declaring (modify change) s fun _ t => t = change s :=
  fun _ => .of_modify ⟨.single move, rfl⟩

theorem of_set {t : Session} (move : Move declaring s t) :
    Does declaring (set t) s fun _ u => u = t :=
  fun _ => Leads.of_ok rfl ⟨.single move, rfl⟩

theorem of_advance (more : s.look.kind ≠ .endOfInput) :
    Does declaring advance s fun _ t => t = s.advance :=
  of_move (.advance s more)

theorem of_remark (diagnostic : Diagnostic) :
    Does declaring (remark diagnostic) s fun _ t => t = s.note (.report diagnostic) :=
  of_move (.observe s _ _ _ _)

theorem of_fail (diagnostic : Diagnostic) : Does declaring (fail diagnostic) s result := by
  intro _
  exact .modify_bind (.of_throw ⟨.single (.fail s _), Nat.succ_ne_zero _⟩)

theorem of_failFull (diagnostic : Diagnostic) : Does declaring (failFull diagnostic) s result :=
  bind (of_move (.exhaust s)) fun _ _ _ _ _ => of_fail diagnostic

theorem of_failExpecting (wanted : Text) : Does declaring (failExpecting wanted) s result :=
  get_bind (of_fail _)

theorem of_ask {read : SymbolTable → Except AccessError α} {a : α} (here : read s.symbols = .ok a) :
    Does declaring (ask read) s fun b t => b = a ∧ t = s := by
  refine get_bind ?_
  rw [here]
  exact of_pure ⟨rfl, rfl⟩

theorem of_expect (kind : TokenKind) (proper : kind ≠ .endOfInput) :
    Does declaring (expect kind) s fun _ t => s.look.kind = kind ∧ t = s.advance := by
  refine lookKind_bind ?_
  split
  · rename_i is
    exact (of_advance (is ▸ proper)).mono fun _ _ _ _ here => ⟨is, here⟩
  · exact of_failExpecting _

/-- Noting when a rule is entered and left changes nothing that a result speaks about. -/
theorem traced {P : Session → Prop} {R : Session → α → Session → Prop} {body : Rule α}
    {name : Nonterminal}
    (blind : ∀ s a t journal depth journal' depth', R { s with journal, depth } a t →
      R s a { t with journal := journal', depth := depth' })
    (pre : ∀ s journal depth, P s → P { s with journal, depth })
    (inner : ∀ s, P s → Does declaring body s (R s)) (holds : P s) :
    Does declaring (Rule.traced name body) s (R s) := by
  intro valid
  have entered : Moves declaring s { s.note (.enter s.depth name) with depth := s.depth + 1 } :=
    .single (.observe s _ _ _ _)
  have lead := inner _ (pre s _ _ holds) (entered.valid valid)
  cases ran : body { s.note (.enter s.depth name) with depth := s.depth + 1 } with
  | ok a t =>
    obtain ⟨moves, result⟩ := lead.ok ran
    refine Leads.of_ok (t := { t.note (.leave (t.depth - 1) name) with depth := t.depth - 1 })
      (by simp only [Rule.traced, ran]) ⟨?_, blind _ _ _ _ _ _ _ result⟩
    exact (entered.trans moves).tail (.observe t _ _ _ _)
  | error abort t =>
    obtain ⟨moves, reported⟩ := lead.error ran
    refine Leads.of_error (t := { t.note (.leave (t.depth - 1) name) with depth := t.depth - 1 })
      (by simp only [Rule.traced, ran]) ⟨?_, reported⟩
    exact (entered.trans moves).tail (.observe t _ _ _ _)

/-- An invariant of the step is one of the loop. -/
theorem iterate {I : α → Session → Prop} {step : α → Rule (Option α)}
    (keeps : ∀ a s, I a s → Does declaring (step a) s fun more t =>
      match more with
      | none => result a t
      | some b => I b t)
    (fuel : Nat) : ∀ a s, I a s → Does declaring (Rule.iterate step fuel a) s result := by
  induction fuel with
  | zero => exact fun _ _ _ => of_outOfFuel
  | succ fuel ih =>
    intro a s holds
    refine bind (keeps a s holds) fun more t _ _ reached => ?_
    cases more with
    | none => exact of_pure reached
    | some b => exact ih b t reached

theorem repeated {I : α → Session → Prop} {step : α → Rule (Option α)} {a : α}
    (keeps : ∀ a s, I a s → Does declaring (step a) s fun more t =>
      match more with
      | none => result a t
      | some b => I b t)
    (start : I a s) : Does declaring (Rule.repeated step a) s result :=
  iterate keeps _ a s start

end Does

/-! ## Writing quads and symbols -/

theorem emit_does {op : Opcode} {a b c : Int} (wf : Quad.WellFormed s.symbols.size ⟨op, a, b, c⟩)
    (target : op.stores = true → s.symbols.Assignable c) :
    Does declaring (emit op a b c) s fun i t =>
      i = s.quads.size ∧ s.quads.size < s.quads.capacity ∧
        t = { s with quads := s.quads.add ⟨op, a, b, c⟩ } := by
  intro valid
  have fits := valid.quads
  refine Does.get_bind ?_ valid
  by_cases full : s.quads.size = s.quads.capacity
  · rw [show s.quads.next? = none by simp [QuadTable.next?, full]]
    exact .of_failFull _
  · have room : s.quads.size < s.quads.capacity := by omega
    rw [QuadTable.next_of_room room]
    exact .bind (.of_move (.emit s _ wf target room)) fun _ t _ _ same => .of_pure ⟨rfl, room, same⟩

theorem patch_does {i : Nat} {target : Int} (jump : s.JumpAt i) :
    Does declaring (patch i target) s fun _ t =>
      t = { s with quads := s.quads.retarget i target } :=
  .of_move (.patch s i target jump)

theorem symbol_does {name : Text} {value : Value} (own : s.Own name value) :
    Does declaring (symbol name value) s fun i t =>
      t.symbols.lookup? name = some i ∧ t.ahead = s.ahead := by
  intro valid
  refine Does.get_bind ?_ valid
  obtain ⟨i, found, added⟩ | ⟨new, full, added⟩ | ⟨new, room, added⟩ :=
    s.symbols.add_cases name .constant value
  · rw [added]
    exact .bind (.of_move (.observe s s.journal s.depth s.warned s.declared)) fun _ t _ _ same =>
      .of_pure (same ▸ ⟨found, rfl⟩)
  · rw [added]
    exact .of_failFull _
  · rw [added]
    refine .bind (.of_move (.symbol s name value own new room)) fun _ t _ _ same => .of_pure ?_
    subst same
    rw [SymbolTable.lookup_insert, if_pos (Text.SameName.refl _)]
    exact ⟨rfl, rfl⟩

theorem constant_does {n : Int64} (unit : n = 1 ∨ n = -1) :
    Does declaring (constant n) s fun i t => i < t.symbols.size ∧ t.ahead = s.ahead := by
  refine (symbol_does (.inl ⟨n, unit, rfl, rfl⟩)).mono fun i t valid moves here => ?_
  exact ⟨(moves.valid valid).symbols.lookup_lt here.1, here.2⟩

theorem temporary_does (kind : Kind) :
    Does declaring (temporary kind) s fun i t =>
      i < t.symbols.size ∧ t.ahead = s.ahead ∧ t.symbols.Assignable i := by
  refine .bind (.of_move (.mint s)) fun _ t _ _ same => .get_bind ?_
  subst same
  refine (symbol_does (.inr ⟨rfl, kind, rfl⟩)).mono fun i t valid moves here => ?_
  exact ⟨(moves.valid valid).symbols.lookup_lt here.1, here.2, .temporary here.1⟩

theorem resultKind_does {a b : Nat} (left : a < s.symbols.size) (right : b < s.symbols.size) :
    Does declaring (resultKind a b) s fun _ t => t = s := by
  obtain ⟨cell, here⟩ := SymbolTable.exists_cell left
  obtain ⟨cell', here'⟩ := SymbolTable.exists_cell right
  refine .bind (.of_ask (SymbolTable.kind_of_cell here)) fun kind t _ _ same => ?_
  obtain ⟨rfl, rfl⟩ := same
  split
  · refine .bind (.of_ask (SymbolTable.kind_of_cell here')) fun kind t _ _ same => ?_
    obtain ⟨rfl, rfl⟩ := same
    split <;> exact .of_pure rfl
  · exact .of_pure rfl

/-- The quads of an arithmetic operation. -/
theorem wellFormed_arithmetic {op : Opcode} (arithmetic : op = .add ∨ op = .sub ∨ op = .mul ∨ op = .div)
    {a b c cells : Nat} (left : a < cells) (right : b < cells) (result : c < cells) :
    Quad.WellFormed cells ⟨op, a, b, c⟩ := by
  have fields : ∀ field ∈ [(a : Int), b, c], 0 ≤ field ∧ field < cells := by
    simp
    omega
  obtain rfl | rfl | rfl | rfl := arithmetic <;> exact ⟨rfl, fields⟩

theorem arithmetic_does {op : Opcode} (arithmetic : op = .add ∨ op = .sub ∨ op = .mul ∨ op = .div)
    {a b : Nat} (left : a < s.symbols.size) (right : b < s.symbols.size) :
    Does declaring (Rule.arithmetic op a b) s fun i t => i < t.symbols.size ∧ t.ahead = s.ahead := by
  refine .bind (resultKind_does left right) fun kind t _ _ same => ?_
  subst same
  refine .bind (temporary_does kind) fun c u moves _ made => ?_
  obtain ⟨bound, ahead, target⟩ := made
  have grown := moves.size_le
  have wf := wellFormed_arithmetic arithmetic (Nat.lt_of_lt_of_le left grown)
    (Nat.lt_of_lt_of_le right grown) bound
  refine .bind (emit_does wf fun _ => target) fun _ v _ _ emitted => .of_pure ?_
  obtain ⟨_, _, rfl⟩ := emitted
  exact ⟨bound, ahead⟩

end MiniPascal.Rule
