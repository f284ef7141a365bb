import MiniPascal.Proofs.Compiler.Cells
import MiniPascal.Proofs.WellFormedCode

/-! # Temporaries are written before they are read

On no path through the code of an accepted program is a temporary read before it has been written. A
temporary belongs to one phrase: the code outside the phrase does not read it, and enters the code of the
phrase only at its start. Inside, a temporary of an expression is written by one quad before all quads
that read it. For every temporary this gives a region of the code that holds the quads which can be reached
without writing it, and no quad of the region reads it.
-/

namespace MiniPascal

/-! ## Paths through code -/

namespace Quad

/-- The cells whose values a quad reads. -/
def reads (q : Quad) : List Int :=
  match q.op with
  | .div | .mul | .sub | .add => [q.a, q.b]
  | .mov | .jz | .jp | .jn | .jnz | .jnp | .jnn => [q.a]
  | .print | .jindr => [q.c]
  | .stop | .read | .jmp | .invalid _ => []

/-- A quad puts a value into a cell. -/
def Writes (q : Quad) (i : Nat) : Prop := q.op.stores = true ∧ q.c = i

/-- Where a run may go on after the quad at a place. -/
def LeadsTo (q : Quad) (place target : Nat) : Prop :=
  target = place + 1 ∨ q.op.isJump = true ∧ q.c = target ∨ q.op = .jindr

end Quad

/-- A path leads from the first quad to a place, and no quad on it writes a cell. -/
inductive Unwritten (code : List Quad) (i : Nat) : Nat → Prop
  | start : Unwritten code i 0
  | later {place target : Nat} {q : Quad} (before : Unwritten code i place)
      (here : code[place]? = some q) (keeps : ¬ q.Writes i) (leads : q.LeadsTo place target) :
      Unwritten code i target

/-- Code that stands at `base` does not read a cell before it has written it: there is a region that is
left only by writing the cell, and no quad of it reads the cell. -/
def Guarded (code : List Quad) (base i : Nat) : Prop :=
  ∃ region : Nat → Prop, region base ∧ ∀ n q, code[n]? = some q → region (base + n) →
    (i : Int) ∉ q.reads ∧ (¬ q.Writes i → ∀ target, q.LeadsTo (base + n) target → region target)

/-- A quad that does not read a cell and does not lead into the code between two places. -/
structure Quad.Around (i first last : Nat) (q : Quad) : Prop where
  silent : (i : Int) ∉ q.reads
  direct : q.op ≠ .jindr
  jumps : q.op.isJump = true → ∃ target : Nat, q.c = target ∧ (target ≤ first ∨ last ≤ target)

/-- A quad whose jumps stay on one side. -/
theorem Quad.Stays.around {q : Quad} {low high first last i : Nat} (stays : q.Stays low high)
    (side : high ≤ first ∨ last ≤ low) (silent : (i : Int) ∉ q.reads) : q.Around i first last := by
  refine ⟨silent, stays.direct, fun jump => ?_⟩
  obtain ⟨target, same, lower, upper⟩ := stays.jumps jump
  exact ⟨target, same, by omega⟩

namespace Quad.Around

variable {i first last : Nat} {q : Quad}

theorem of_plain (plain : q.op.isJump = false) (direct : q.op ≠ .jindr) (silent : (i : Int) ∉ q.reads) :
    q.Around i first last :=
  ⟨silent, direct, fun jump => by rw [plain] at jump; cases jump⟩

theorem of_jump {op : Opcode} {a b : Int} {target : Nat} (jump : op.isJump = true)
    (silent : (i : Int) ∉ Quad.reads ⟨op, a, b, target⟩) (side : target ≤ first ∨ last ≤ target) :
    Around i first last ⟨op, a, b, target⟩ := by
  refine ⟨silent, ?_, fun _ => ⟨target, rfl, side⟩⟩
  rintro rfl
  cases jump

end Quad.Around

namespace Guarded

variable {code before inner after : List Quad} {base i : Nat}

/-- A quad that is reached without writing the cell does not read it. -/
theorem unread (guarded : Guarded code 0 i) {place : Nat} (unwritten : Unwritten code i place) {q : Quad}
    (here : code[place]? = some q) : (i : Int) ∉ q.reads := by
  obtain ⟨region, start, closed⟩ := guarded
  have inside : region place := by
    clear here
    induction unwritten with
    | start => exact start
    | @later place target q _ here keeps leads ih =>
      rw [← Nat.zero_add place] at ih leads
      exact (closed place q here ih).2 keeps target leads
  rw [← Nat.zero_add place] at inside
  exact (closed place q here inside).1

/-- Code around a phrase that guards a cell guards it too. -/
theorem within (guarded : Guarded inner (base + before.length) i)
    (earlier : ∀ q ∈ before, q.Around i (base + before.length) (base + before.length + inner.length))
    (later : ∀ q ∈ after, q.Around i (base + before.length) (base + before.length + inner.length)) :
    Guarded (before ++ (inner ++ after)) base i := by
  obtain ⟨region, start, closed⟩ := guarded
  -- all that is not inside the phrase is in the region
  refine ⟨fun place => place ≤ base + before.length ∨ base + before.length + inner.length ≤ place ∨
    region place, .inl (Nat.le_add_right _ _), fun n q here place => ?_⟩
  have outside (around : q.Around i (base + before.length) (base + before.length + inner.length))
      (next : base + n + 1 ≤ base + before.length ∨
        base + before.length + inner.length ≤ base + n + 1) :
      (i : Int) ∉ q.reads ∧ (¬ q.Writes i → ∀ target, q.LeadsTo (base + n) target →
        target ≤ base + before.length ∨ base + before.length + inner.length ≤ target ∨
          region target) := by
    refine ⟨around.silent, fun _ target leads => ?_⟩
    obtain rfl | ⟨jump, same⟩ | indirect := leads
    · exact next.imp_right .inl
    · obtain ⟨other, same', side⟩ := around.jumps jump
      obtain rfl : other = target := by omega
      exact side.imp_right .inl
    · exact absurd indirect around.direct
  rw [List.getElem?_append] at here
  split at here
  · exact outside (earlier q (List.mem_of_getElem? here)) (.inl (by omega))
  · rw [List.getElem?_append] at here
    split at here
    · have place : region (base + before.length + (n - before.length)) := by
        obtain first | past | inside := place
        · obtain rfl : n = before.length := by omega
          rw [Nat.sub_self]
          exact start
        · omega
        · rwa [show base + before.length + (n - before.length) = base + n by omega]
      obtain ⟨silent, leave⟩ := closed _ q here place
      refine ⟨silent, fun keeps target leads => .inr (.inr (leave keeps target ?_))⟩
      rwa [show base + before.length + (n - before.length) = base + n by omega]
    · exact outside (later q (List.mem_of_getElem? here)) (.inr (by omega))

theorem followed (guarded : Guarded inner base i)
    (later : ∀ q ∈ after, q.Around i base (base + inner.length)) :
    Guarded (inner ++ after) base i := by
  have whole : Guarded ([] ++ (inner ++ after)) base i := within guarded (List.forall_mem_nil _) later
  exact whole

theorem preceded (guarded : Guarded inner (base + before.length) i)
    (earlier : ∀ q ∈ before, q.Around i (base + before.length) (base + before.length + inner.length)) :
    Guarded (before ++ inner) base i := by
  have whole : Guarded (before ++ (inner ++ [])) base i := within guarded earlier (List.forall_mem_nil _)
  rwa [List.append_nil] at whole

/-- Straight code guards a cell that it writes before anything reads it. -/
theorem of_definition {q : Quad} (writes : q.Writes i) (unread : (i : Int) ∉ q.reads)
    (straight : ∀ q ∈ before, (i : Int) ∉ q.reads ∧ q.op.isJump = false ∧ q.op ≠ .jindr) :
    Guarded (before ++ q :: after) base i := by
  refine ⟨fun place => place ≤ base + before.length, Nat.le_add_right _ _, fun n found here place => ?_⟩
  obtain less | same : n < before.length ∨ n = before.length := by omega
  · rw [List.getElem?_append_left less] at here
    obtain ⟨silent, plain, direct⟩ := straight found (List.mem_of_getElem? here)
    refine ⟨silent, fun _ target leads => ?_⟩
    obtain rfl | ⟨jump, _⟩ | indirect := leads
    · omega
    · rw [plain] at jump
      cases jump
    · exact absurd indirect direct
  · subst same
    rw [List.getElem?_append_right (Nat.le_refl _), Nat.sub_self] at here
    cases here
    exact ⟨unread, fun keeps => absurd writes keeps⟩

end Guarded

/-! ## Temporaries of a phrase -/

open Syntax

/-- No token that has a symbol is spelled like a temporary. -/
def Apart (tokens : List Token) : Prop :=
  ∀ {kind name}, Among tokens kind name → kind.hasSymbol = true →
    ∀ n, ¬ name.SameName (Rule.temporaryName n)

namespace Syntax

/-- Nothing in an expression is spelled like a temporary. -/
def Expr.Apart : Expr → Prop
  | literal name | var name => ∀ n, ¬ name.SameName (Rule.temporaryName n)
  | negated e => e.Apart
  | operation _ left right => left.Apart ∧ right.Apart

variable {tokens : List Token} {table : SymbolTable}

theorem Expr.DrawnFrom.apart {e : Expr} (drawn : e.DrawnFrom tokens) (apart : MiniPascal.Apart tokens) :
    e.Apart := by
  induction e with
  | literal name =>
    obtain integer | real := drawn
    · exact apart integer rfl
    · exact apart real rfl
  | var name => exact apart drawn rfl
  | negated _ ih => exact ih drawn
  | operation _ _ _ ih ih' => exact ⟨ih drawn.1, ih' drawn.2⟩

theorem Expr.OperandFrom.apart {e : Expr} (drawn : e.OperandFrom tokens)
    (apart : MiniPascal.Apart tokens) : e.Apart := by
  obtain drawn | ⟨name, rfl, among⟩ := drawn
  · exact drawn.apart apart
  · exact apart among rfl

theorem Expr.Laid.le {e : Expr} {lo hi i : Nat} {code : List Quad} (laid : e.Laid table lo hi code i) :
    lo ≤ hi := by
  induction laid <;> omega

theorem Stmt.Laid.le {s : Stmt} {lo hi base : Nat} {code : List Quad}
    (laid : s.Laid table lo hi base code) : lo ≤ hi := by
  induction laid with
  | empty | readln => exact Nat.le_refl _
  | sequence _ _ ih ih' => omega
  | assignment _ source => exact source.le
  | ifThen test _ ih => exact Nat.le_trans test.le ih
  | ifElse test _ _ ih ih' =>
    have := test.le
    omega
  | whileLoop test _ ih => exact Nat.le_trans test.le ih
  | repeatLoop _ test ih => exact Nat.le_trans ih test.le
  | forLoop _ starts upTo _ _ _ _ _ ih =>
    have := starts.le
    have := upTo.le
    omega
  | writeln value => exact value.le

variable {k c : Nat}

theorem Operator.silent (op : Operator) {i j : Nat} (left : i ≠ c) (right : j ≠ c) (result : Int) :
    (c : Int) ∉ Quad.reads ⟨op.opcode, i, j, result⟩ := by
  have both : (c : Int) ∉ [(i : Int), (j : Int)] := by
    simp
    omega
  cases op <;> exact both

theorem Operator.writes (op : Operator) (a b : Int) (c : Nat) :
    Quad.Writes ⟨op.opcode, a, b, c⟩ c := by
  cases op <;> exact ⟨rfl, rfl⟩

/-- A quad whose only operand is its first number does not read another cell. -/
theorem silent_of_ne {i : Nat} (other : i ≠ c) : (c : Int) ∉ [(i : Int)] := by
  simp
  omega

theorem Comparison.silent (comparison : Comparison) {i : Nat} (other : i ≠ c) (b target : Int) :
    (c : Int) ∉ Quad.reads ⟨comparison.falseJump, i, b, target⟩ := by
  cases comparison <;> exact silent_of_ne other

/-- How far a counter has to go is told by the counter and its bound alone. -/
theorem silent_span (down : Bool) {counter bound : Nat} (left : counter ≠ c) (right : bound ≠ c)
    (result : Int) : (c : Int) ∉
      Quad.reads ⟨.sub, (span down counter bound).1, (span down counter bound).2, result⟩ := by
  cases down with
  | true => exact Operator.sub.silent left right result
  | false => exact Operator.sub.silent right left result

section Counting

variable {counter start limit step bound distance first last target : Nat}
variable (counting : counter ≠ c) (bounding : bound ≠ c) (measuring : distance ≠ c)
variable (side : target ≤ first ∨ last ≤ target)

include counting bounding measuring side

/-- What a counting loop does before its first round, for a cell that is none of its own. -/
theorem around_entry (down : Bool) (starting : start ≠ c) (ending : limit ≠ c) :
    ∀ q ∈ ([⟨.mov, start, 0, counter⟩, ⟨.mov, limit, 0, bound⟩,
      ⟨.sub, (span down counter bound).1, (span down counter bound).2, distance⟩,
      ⟨.jn, distance, 0, target⟩] : List Quad), q.Around c first last := by
  simp only [List.forall_mem_cons]
  exact ⟨.of_plain rfl nofun (silent_of_ne starting), .of_plain rfl nofun (silent_of_ne ending),
    .of_plain rfl nofun (silent_span down counting bounding _),
    .of_jump rfl (silent_of_ne measuring) side, List.forall_mem_nil _⟩

/-- What a counting loop does after each round, for a cell that is none of its own. -/
theorem around_round (down : Bool) (stepping : step ≠ c) :
    ∀ q ∈ ([⟨.add, counter, step, counter⟩,
      ⟨.sub, (span down counter bound).1, (span down counter bound).2, distance⟩,
      ⟨.jnn, distance, 0, target⟩] : List Quad), q.Around c first last := by
  simp only [List.forall_mem_cons]
  exact ⟨.of_plain rfl nofun (Operator.add.silent counting stepping _),
    .of_plain rfl nofun (silent_span down counting bounding _),
    .of_jump rfl (silent_of_ne measuring) side, List.forall_mem_nil _⟩

end Counting

theorem Relation.DrawnFrom.apart {r : Relation} (drawn : r.DrawnFrom tokens)
    (apart : MiniPascal.Apart tokens) : r.difference.Apart :=
  ⟨drawn.1.apart apart, drawn.2.apart apart⟩

/-- The code of an expression has no jumps. -/
theorem Expr.Laid.plain {e : Expr} {lo hi i : Nat} {code : List Quad}
    (laid : e.Laid table lo hi code i) : ∀ q ∈ code, q.op.isJump = false ∧ q.op ≠ .jindr := by
  intro q member
  -- a jump would have to lead to a place between the first and the one before it
  have stays := laid.stays 1 0 q member
  refine ⟨?_, stays.direct⟩
  rw [Bool.eq_false_iff]
  intro jump
  obtain ⟨target, _, lower, upper⟩ := stays.jumps jump
  omega

section Temporaries

variable (wf : table.WellFormed) (made : table.lookup? (Rule.temporaryName k) = some c)

include wf made

theorem ne_of_apart {name : Text} {i : Nat} (found : table.lookup? name = some i)
    (apart : ¬ name.SameName (Rule.temporaryName k)) : i ≠ c := by
  rintro rfl
  exact apart (wf.sameName found made)

theorem ne_of_temporary {n i : Nat} (found : table.lookup? (Rule.temporaryName n) = some i)
    (other : n ≠ k) : i ≠ c :=
  ne_of_apart wf made found (mt Rule.temporaryName_inj other)

/-- An expression neither reads nor results in a temporary that is not its own. -/
theorem Expr.Laid.silent {e : Expr} {lo hi i : Nat} {code : List Quad}
    (laid : e.Laid table lo hi code i) (apart : e.Apart) (other : k ≤ lo ∨ hi < k) :
    i ≠ c ∧ ∀ q ∈ code, (c : Int) ∉ q.reads := by
  induction laid with
  | literal found | var found => exact ⟨ne_of_apart wf made found (apart k), List.forall_mem_nil _⟩
  | @negated e lo n i one result code inner minusOne makes ih =>
    have le := inner.le
    obtain ⟨apart', silent⟩ := ih apart (by omega)
    obtain ⟨_, _, _, _, temporary⟩ := makes.kinds
    have unit : one ≠ c := ne_of_apart wf made minusOne (Rule.temporaryName_ne (.inr rfl))
    refine ⟨ne_of_temporary wf made temporary.lookup (by omega), ?_⟩
    rw [List.forall_mem_append, List.forall_mem_singleton]
    exact ⟨silent, Operator.mul.silent apart' unit _⟩
  | @operation op _ _ lo middle n i j result _ _ left right makes ih ih' =>
    have le := left.le
    have le' := right.le
    obtain ⟨apart', silent⟩ := ih apart.1 (by omega)
    obtain ⟨apart'', silent'⟩ := ih' apart.2 (by omega)
    obtain ⟨_, _, _, _, temporary⟩ := makes.kinds
    refine ⟨ne_of_temporary wf made temporary.lookup (by omega), ?_⟩
    rw [List.forall_mem_append, List.forall_mem_append, List.forall_mem_singleton]
    exact ⟨silent, silent', op.silent apart' apart'' _⟩

/-- An expression writes each of its temporaries before it reads it. -/
theorem Expr.Laid.defines {e : Expr} {lo hi i : Nat} {code : List Quad}
    (laid : e.Laid table lo hi code i) (apart : e.Apart) (own : lo < k ∧ k ≤ hi) :
    ∃ before q after, code = before ++ q :: after ∧ q.Writes c ∧ (c : Int) ∉ q.reads ∧
      ∀ q ∈ before, (c : Int) ∉ q.reads := by
  induction laid with
  | literal | var => omega
  | @negated e lo n i one result code inner minusOne makes ih =>
    by_cases last : k = n + 1
    · subst last
      obtain ⟨_, _, _, _, temporary⟩ := makes.kinds
      obtain ⟨apart', silent⟩ := inner.silent wf made apart (by omega)
      have unit : one ≠ c := ne_of_apart wf made minusOne (Rule.temporaryName_ne (.inr rfl))
      obtain rfl : result = c := Option.some.inj (temporary.lookup.symm.trans made)
      exact ⟨code, _, [], rfl, Operator.mul.writes _ _ _, Operator.mul.silent apart' unit _, silent⟩
    · obtain ⟨before, q, after, rfl, writes, unread, silent⟩ := ih apart (by omega)
      exact ⟨before, q, after ++ _, by rw [List.append_assoc]; rfl, writes, unread, silent⟩
  | @operation op _ _ lo middle n i j result code code' left right makes ih ih' =>
    have le := left.le
    have le' := right.le
    by_cases last : k = n + 1
    · subst last
      obtain ⟨_, _, _, _, temporary⟩ := makes.kinds
      obtain ⟨apart', silent⟩ := left.silent wf made apart.1 (by omega)
      obtain ⟨apart'', silent'⟩ := right.silent wf made apart.2 (by omega)
      obtain rfl : result = c := Option.some.inj (temporary.lookup.symm.trans made)
      refine ⟨code ++ code', _, [], by rw [List.append_assoc], op.writes _ _ _,
        op.silent apart' apart'' _, ?_⟩
      rw [List.forall_mem_append]
      exact ⟨silent, silent'⟩
    · by_cases first : k ≤ middle
      · obtain ⟨before, q, after, rfl, writes, unread, silent⟩ := ih apart.1 (by omega)
        exact ⟨before, q, after ++ _, by rw [List.append_assoc]; rfl, writes, unread, silent⟩
      · obtain ⟨before, q, after, rfl, writes, unread, silent⟩ := ih' apart.2 (by omega)
        obtain ⟨_, silent'⟩ := left.silent wf made apart.1 (by omega)
        refine ⟨code ++ before, q, after ++ [⟨op.opcode, i, j, result⟩], by simp, writes, unread, ?_⟩
        rw [List.forall_mem_append]
        exact ⟨silent', silent⟩

/-- Code that starts with the code of an expression guards its temporaries. -/
theorem Expr.Laid.guarded {e : Expr} {lo hi i base : Nat} {code after : List Quad}
    (laid : e.Laid table lo hi code i) (apart : e.Apart) (own : lo < k ∧ k ≤ hi) :
    Guarded (code ++ after) base c := by
  have plain := laid.plain
  obtain ⟨before, q, rest, rfl, writes, unread, silent⟩ := laid.defines wf made apart own
  rw [List.append_assoc]
  exact .of_definition writes unread fun found member =>
    ⟨silent found member, plain found (List.mem_append_left _ member)⟩

theorem Expr.Laid.straight {e : Expr} {lo hi i : Nat} {code : List Quad}
    (laid : e.Laid table lo hi code i) (apart : e.Apart) (other : k ≤ lo ∨ hi < k) :
    ∀ q ∈ code, (c : Int) ∉ q.reads ∧ q.op.isJump = false ∧ q.op ≠ .jindr :=
  fun q member => ⟨(laid.silent wf made apart other).2 q member, laid.plain q member⟩

theorem Expr.Laid.around {e : Expr} {lo hi i first last : Nat} {code : List Quad}
    (laid : e.Laid table lo hi code i) (apart : e.Apart) (other : k ≤ lo ∨ hi < k) :
    ∀ q ∈ code, q.Around c first last := by
  intro q member
  obtain ⟨silent, plain, direct⟩ := laid.straight wf made apart other q member
  exact .of_plain plain direct silent

/-- A test with the jump that is taken if it fails. -/
theorem Relation.around_test (r : Relation) {lo hi i first last target : Nat} {code : List Quad}
    (test : r.difference.Laid table lo hi code i) (apart : r.difference.Apart) (other : k ≤ lo ∨ hi < k)
    (side : target ≤ first ∨ last ≤ target) :
    ∀ q ∈ code ++ [⟨r.comparison.falseJump, i, 0, target⟩], q.Around c first last := by
  have jumps := r.comparison.silent (test.silent wf made apart other).1
  rw [List.forall_mem_append, List.forall_mem_singleton]
  exact ⟨test.around wf made apart other, .of_jump r.comparison.isJump_falseJump (jumps _ _) side⟩

/-- A statement does not read a temporary that is not its own. -/
theorem Stmt.Laid.silent {s : Stmt} {lo hi base : Nat} {code : List Quad}
    (laid : s.Laid table lo hi base code) (drawn : s.DrawnFrom tokens)
    (apart : MiniPascal.Apart tokens) (other : k ≤ lo ∨ hi < k) : ∀ q ∈ code, (c : Int) ∉ q.reads := by
  induction laid with
  | empty => exact List.forall_mem_nil _
  | sequence first second ih ih' =>
    have le := first.le
    have le' := second.le
    rw [List.forall_mem_append]
    exact ⟨ih drawn.1 (by omega), ih' drawn.2 (by omega)⟩
  | assignment _ source =>
    obtain ⟨ne, silent⟩ := source.silent wf made (drawn.2.apart apart) other
    rw [List.forall_mem_append, List.forall_mem_singleton]
    exact ⟨silent, silent_of_ne ne⟩
  | @ifThen r _ _ _ _ _ _ _ _ test body ih =>
    have le := test.le
    have le' := body.le
    obtain ⟨ne, silent⟩ := test.silent wf made (drawn.1.apart apart) (by omega)
    rw [List.forall_mem_append, List.forall_mem_cons]
    exact ⟨silent, r.comparison.silent ne _ _, ih drawn.2 (by omega)⟩
  | @ifElse r _ _ _ _ _ _ _ _ _ _ _ test body otherwise ih ih' =>
    have le := test.le
    have le' := body.le
    have le'' := otherwise.le
    obtain ⟨ne, silent⟩ := test.silent wf made (drawn.1.apart apart) (by omega)
    simp only [List.forall_mem_append, List.forall_mem_cons]
    exact ⟨silent, r.comparison.silent ne _ _, ih drawn.2.1 (by omega), List.not_mem_nil,
      ih' drawn.2.2 (by omega)⟩
  | @whileLoop r _ _ _ _ _ _ _ _ test body ih =>
    have le := test.le
    have le' := body.le
    obtain ⟨ne, silent⟩ := test.silent wf made (drawn.1.apart apart) (by omega)
    simp only [List.forall_mem_append, List.forall_mem_cons]
    exact ⟨silent, r.comparison.silent ne _ _, ih drawn.2 (by omega), List.not_mem_nil,
      List.forall_mem_nil _⟩
  | @repeatLoop r _ _ _ _ _ _ _ _ body test ih =>
    have le := body.le
    have le' := test.le
    obtain ⟨ne, silent⟩ := test.silent wf made (drawn.2.apart apart) (by omega)
    simp only [List.forall_mem_append, List.forall_mem_singleton]
    exact ⟨ih drawn.1 (by omega), silent, r.comparison.silent ne _ _⟩
  | @forLoop _ _ _ down _ _ _ n _ _ _ _ _ _ _ _ _ _ _ _ found starts upTo steps _ copied makes body ih =>
    obtain ⟨among, drawn, drawn', drawn''⟩ := drawn
    have le := starts.le
    have le' := upTo.le
    have le'' := body.le
    obtain ⟨ne, silent⟩ := starts.silent wf made (drawn.apart apart) (by omega)
    obtain ⟨ne', silent'⟩ := upTo.silent wf made (drawn'.apart apart) (by omega)
    obtain ⟨_, _, _, _, temporary⟩ := makes.kinds
    have counter := ne_of_apart wf made found (apart among rfl k)
    have step := ne_of_apart wf made steps (Rule.temporaryName_ne (by cases down <;> simp))
    have bound := ne_of_temporary wf made copied.lookup (by omega)
    have distance := ne_of_temporary wf made temporary.lookup (by omega)
    simp only [List.forall_mem_append, List.forall_mem_cons]
    exact ⟨silent, silent', ⟨silent_of_ne ne, silent_of_ne ne', silent_span down counter bound _,
        silent_of_ne distance, List.forall_mem_nil _⟩, ih drawn'' (by omega), Operator.add.silent counter step _,
      silent_span down counter bound _, silent_of_ne distance, List.forall_mem_nil _⟩
  | writeln value =>
    obtain ⟨ne, silent⟩ := value.silent wf made (Expr.OperandFrom.apart drawn apart) other
    rw [List.forall_mem_append, List.forall_mem_singleton]
    exact ⟨silent, silent_of_ne ne⟩
  | readln => exact List.forall_mem_singleton.mpr List.not_mem_nil

theorem Stmt.Laid.around {s : Stmt} {lo hi base first last : Nat} {code : List Quad}
    (laid : s.Laid table lo hi base code) (drawn : s.DrawnFrom tokens)
    (apart : MiniPascal.Apart tokens) (other : k ≤ lo ∨ hi < k)
    (side : base + code.length ≤ first ∨ last ≤ base) : ∀ q ∈ code, q.Around c first last := by
  intro q member
  exact (laid.stays q member).around side (laid.silent wf made drawn apart other q member)

/-- A statement guards its temporaries. -/
theorem Stmt.Laid.guarded {s : Stmt} {lo hi base : Nat} {code : List Quad}
    (laid : s.Laid table lo hi base code) (drawn : s.DrawnFrom tokens)
    (apart : MiniPascal.Apart tokens) (own : lo < k ∧ k ≤ hi) : Guarded code base c := by
  induction laid with
  | empty | readln => omega
  | @sequence _ _ _ middle _ _ code code' first second ih ih' =>
    by_cases left : k ≤ middle
    · apply Guarded.followed (ih drawn.1 (by omega))
      exact second.around wf made drawn.2 apart (.inl left) (.inr (Nat.le_refl _))
    · apply Guarded.preceded (ih' drawn.2 (by omega))
      exact first.around wf made drawn.1 apart (.inr (by omega)) (.inl (Nat.le_refl _))
  | assignment _ source => exact source.guarded wf made (drawn.2.apart apart) own
  | @ifThen r _ _ middle _ base i code code' test body ih =>
    have apart' := drawn.1.apart apart
    by_cases left : k ≤ middle
    · exact test.guarded wf made apart' (by omega)
    · rw [List.append_cons]
      apply Guarded.preceded
      · rw [List.length_append]
        exact ih drawn.2 (by omega)
      · apply r.around_test wf made test apart' (.inr (by omega))
        simp only [List.length_append, List.length_singleton]
        omega
  | @ifElse r _ _ _ middle after _ base i code code' code'' test body otherwise ih ih' =>
    have apart' := drawn.1.apart apart
    by_cases left : k ≤ middle
    · exact test.guarded wf made apart' (by omega)
    have le := body.le
    by_cases right : k ≤ after
    · rw [List.append_cons]
      apply Guarded.within
      · rw [List.length_append]
        exact ih drawn.2.1 (by omega)
      · apply r.around_test wf made test apart' (.inr (by omega))
        simp only [List.length_append, List.length_singleton]
        omega
      · rw [List.forall_mem_cons, List.length_append, List.length_singleton]
        exact ⟨.of_jump rfl List.not_mem_nil (.inr (by omega)),
          otherwise.around wf made drawn.2.2 apart (.inl right) (.inr (by omega))⟩
    · have same (jump leave : Quad) : code ++ jump :: (code' ++ leave :: code'') =
          ((code ++ [jump]) ++ (code' ++ [leave])) ++ code'' := by simp
      rw [same]
      apply Guarded.preceded
      · have start := ih' drawn.2.2 (by omega)
        simpa [Nat.add_assoc, Nat.add_comm, Nat.add_left_comm] using start
      · simp only [List.length_append, List.length_singleton]
        rw [List.forall_mem_append]
        constructor
        · exact r.around_test wf made test apart' (.inr (by omega)) (.inl (by omega))
        · rw [List.forall_mem_append, List.forall_mem_singleton]
          exact ⟨body.around wf made drawn.2.1 apart (.inr (by omega)) (.inl (by omega)),
            .of_jump rfl List.not_mem_nil (.inr (by omega))⟩
  | @whileLoop r _ _ middle _ base i code code' test body ih =>
    have apart' := drawn.1.apart apart
    by_cases left : k ≤ middle
    · exact test.guarded wf made apart' (by omega)
    · rw [List.append_cons]
      apply Guarded.within
      · rw [List.length_append]
        exact ih drawn.2 (by omega)
      · apply r.around_test wf made test apart' (.inr (by omega))
        simp only [List.length_append, List.length_singleton]
        omega
      · rw [List.forall_mem_singleton]
        exact .of_jump rfl List.not_mem_nil (.inl (by omega))
  | @repeatLoop r _ _ middle _ base i code code' body test ih =>
    have apart' := drawn.2.apart apart
    by_cases left : k ≤ middle
    · apply Guarded.followed (ih drawn.1 (by omega))
      exact r.around_test wf made test apart' (.inl left) (.inl (Nat.le_refl _))
    · apply Guarded.preceded (test.guarded wf made apart' (by omega))
      exact body.around wf made drawn.1 apart (.inr (by omega)) (.inl (Nat.le_refl _))
  | @forLoop _ _ _ down _ _ middle n _ base counter start limit step bound distance _ code code' code''
      found starts upTo steps _ copied makes body ih =>
    -- a temporary of the start or of the limit, the copy of the limit, the distance, or one of the body
    obtain ⟨among, drawn, drawn', drawn''⟩ := drawn
    have first := drawn.apart apart
    have second := drawn'.apart apart
    by_cases left : k ≤ middle
    · exact starts.guarded wf made first (by omega)
    have le := upTo.le
    have starting := (starts.silent wf made first (.inr (by omega))).1
    by_cases right : k ≤ n
    · apply Guarded.preceded (upTo.guarded wf made second (by omega))
      exact starts.around wf made first (.inr (by omega))
    have ending := (upTo.silent wf made second (.inr (by omega))).1
    have counting := ne_of_apart wf made found (apart among rfl k)
    have before := starts.straight wf made first (.inr (by omega))
    have before' := upTo.straight wf made second (.inr (by omega))
    obtain ⟨_, _, _, _, temporary⟩ := makes.kinds
    by_cases copy : k = n + 1
    · subst copy
      obtain rfl : bound = c := Option.some.inj (copied.lookup.symm.trans made)
      have same (move move' : Quad) (rest : List Quad) :
          code ++ (code' ++ (move :: move' :: rest)) = (code ++ (code' ++ [move])) ++ move' :: rest := by
        simp
      rw [List.cons_append, List.cons_append, same]
      apply Guarded.of_definition ⟨rfl, rfl⟩ (silent_of_ne ending)
      simp only [List.forall_mem_append, List.forall_mem_singleton]
      exact ⟨before, before', silent_of_ne starting, rfl, nofun⟩
    have bounding := ne_of_temporary wf made copied.lookup (Ne.symm copy)
    by_cases gap : k = n + 2
    · subst gap
      obtain rfl : distance = c := Option.some.inj (temporary.lookup.symm.trans made)
      have same (move move' sub : Quad) (rest : List Quad) :
          code ++ (code' ++ (move :: move' :: sub :: rest)) =
            (code ++ (code' ++ [move, move'])) ++ sub :: rest := by
        simp
      rw [List.cons_append, List.cons_append, List.cons_append, same]
      apply Guarded.of_definition ⟨rfl, rfl⟩ (silent_span down counting bounding _)
      simp only [List.forall_mem_append, List.forall_mem_cons]
      exact ⟨before, before', ⟨silent_of_ne starting, rfl, nofun⟩, ⟨silent_of_ne ending, rfl, nofun⟩,
        List.forall_mem_nil _⟩
    · have stepping := ne_of_apart wf made steps (Rule.temporaryName_ne (by cases down <;> simp))
      have measuring := ne_of_temporary wf made temporary.lookup (Ne.symm gap)
      have same (head rest : List Quad) :
          code ++ (code' ++ (head ++ rest)) = (code ++ (code' ++ head)) ++ rest := by
        simp
      rw [same]
      apply Guarded.within
      · have inner := ih drawn'' (by omega)
        simpa [Nat.add_assoc, Nat.add_comm, Nat.add_left_comm] using inner
      · simp only [List.length_append, List.length_cons, List.length_nil]
        rw [List.forall_mem_append, List.forall_mem_append]
        exact ⟨starts.around wf made first (.inr (by omega)), upTo.around wf made second (.inr (by omega)),
          around_entry counting bounding measuring (.inr (by omega)) down starting ending⟩
      · simp only [List.length_append, List.length_cons, List.length_nil]
        exact around_round counting bounding measuring (.inl (by omega)) down stepping
  | writeln value => exact value.guarded wf made (Expr.OperandFrom.apart drawn apart) own

end Temporaries

end Syntax

/-! ## Temporaries of a program -/

/-- Code that reads none of some cells before it has written it. -/
def WritesFirst (cells : Nat → Prop) (code : List Quad) : Prop :=
  ∀ {i place q}, cells i → Unwritten code i place → code[place]? = some q → (i : Int) ∉ q.reads

theorem compile_writesFirst {options : CompileOptions} {input : Input}
    (accepted : (compile options input).verdict = .accepted) :
    WritesFirst (fun i => (compile options input).program.symbols.IsTemporary i)
      (compile options input).program.quads.code := by
  obtain ⟨⟨p, rest, spelled⟩, builds⟩ := built_of_accepted accepted
  obtain ⟨t, built, _⟩ := builds p rest spelled
  obtain ⟨code, written, laid⟩ := built.code
  have wf := built.orderly.valid.symbols
  have drawn := built.spelled.drawn.body
  have apart : Apart (tokensOf (scanned options input)) := not_temporary_of_among
  rw [built.tables]
  rintro i place q ⟨k, named⟩ unwritten here
  have made := wf.lookup_of_name named
  change t.code[place]? = some q at here
  change Unwritten t.code i place at unwritten
  rw [written] at here unwritten
  by_cases own : 0 < k ∧ k ≤ t.temporaries
  · have guarded := laid.guarded wf made drawn apart own
    refine (guarded.followed ?_).unread unwritten here
    rw [List.forall_mem_singleton]
    exact .of_plain rfl nofun nofun
  · have silent := laid.silent wf made drawn apart (by omega)
    obtain member | last := List.mem_append.mp (List.mem_of_getElem? here)
    · exact silent q member
    · obtain rfl := List.mem_singleton.mp last
      nofun

end MiniPascal
