import MiniPascal.Proofs.Computation
import MiniPascal.Proofs.Compiler.Moves

/-! # What a grammar rule spends

Tokens are the currency of a compilation. A rule that goes round in a loop or calls itself has read a
token since, and what it stores is paid for by the tokens it reads, at sixteen symbols or quads for
one token. `Spends` states this of every outcome of a rule, and that the rule does not run out of
fuel. The fuel of each loop and of each recursion is more than the number of tokens ahead, so it is
never used up.

A rule that breaks off because a table is full may have read nothing, but then no statement is tried
again.
-/

namespace MiniPascal

namespace Session

/-- Symbols and quads stored so far, and as many as the tokens ahead can pay for. -/
def budget (s : Session) : Int := s.symbols.size + s.quads.size + 16 * s.ahead.length

/-- At most so many tokens are ahead, and the budget is at most the given one. -/
def Within (tokens budget : Int) (s : Session) : Prop := s.ahead.length ≤ tokens ∧ s.budget ≤ budget

/-- The same of a session in which a rule broke off. If a table was full then nothing is said about
the tokens. -/
def Halted (tokens budget : Int) (s : Session) : Prop :=
  (s.exhausted = false → s.ahead.length ≤ tokens) ∧ s.budget ≤ budget

variable {n m b c : Int} {s : Session}

theorem Within.mono (within : s.Within m c) (le : m ≤ n ∧ c ≤ b) : s.Within n b :=
  ⟨Int.le_trans within.1 le.1, Int.le_trans within.2 le.2⟩

theorem Within.halted (within : s.Within n b) : s.Halted n b := ⟨fun _ => within.1, within.2⟩

theorem Halted.mono (halted : s.Halted m c) (le : m ≤ n ∧ c ≤ b) : s.Halted n b :=
  ⟨fun room => Int.le_trans (halted.1 room) le.1, Int.le_trans halted.2 le.2⟩

/-- A token registers at most one symbol. -/
theorem size_advance_le (s : Session) : s.advance.symbols.size ≤ s.symbols.size + 1 := by
  obtain same | ⟨_, _, cell, _, _, _, _, added⟩ := s.symbols_advance
  · rw [same]
    omega
  · exact Nat.le_of_eq (by rw [added, SymbolTable.size_insert])

/-- Reading a token pays for fifteen symbols or quads besides its own. -/
theorem Within.advance (within : s.Within n b) (more : s.look.kind ≠ .endOfInput) :
    s.advance.Within (n - 1) (b - 15) := by
  have tokens := congrArg List.length (ahead_eq_cons more)
  have grown := s.size_advance_le
  obtain ⟨ahead, budget⟩ := within
  simp only [List.length_cons] at tokens
  simp only [Session.budget, Within, quads_advance] at *
  omega

theorem length_advance (s : Session) (more : s.look.kind ≠ .endOfInput) :
    s.advance.ahead.length < s.ahead.length := by
  rw [ahead_eq_cons more, List.length_cons]
  omega

end Session

namespace Rule

open Session

variable {α β : Type} {n m k k' b c d d' : Int} {s : Session}

/-- A rule does not run out of fuel, a value it returns has the stated result, and if it breaks off
then within the given bounds. -/
def Spends (tokens budget : Int) (rule : Rule α) (s : Session) (result : α → Session → Prop) : Prop :=
  Leads rule s result fun abort t => abort ≠ .outOfFuel ∧ t.Halted tokens budget

namespace Spends

variable {rule : Rule α} {next : α → Rule β} {result : α → Session → Prop}
variable {after : β → Session → Prop}

theorem of_pure {a : α} (holds : result a s) : Spends n b (pure a) s result := holds

theorem of_eq {other : Rule α} (same : rule s = other s) (spends : Spends n b other s result) :
    Spends n b rule s result := by
  unfold Spends Leads at *
  rwa [same]

theorem mono {result' : α → Session → Prop} (spends : Spends n b rule s result)
    (imp : ∀ a t, result a t → result' a t) : Spends n b rule s result' :=
  Leads.mono spends imp fun _ _ broken => broken

theorem weaken (spends : Spends m c rule s result) (le : m ≤ n ∧ c ≤ b) :
    Spends n b rule s result :=
  Leads.mono spends (fun _ _ holds => holds) fun _ _ broken => ⟨broken.1, broken.2.mono le⟩

theorem relax (spends : Spends m c rule s fun _ t => t.Within k d)
    (le : (m ≤ n ∧ c ≤ b) ∧ k ≤ k' ∧ d ≤ d') : Spends n b rule s fun _ t => t.Within k' d' :=
  (spends.weaken le.1).mono fun _ _ within => within.mono le.2

/-- One rule after another. -/
theorem bind (first : Spends m c rule s result) (le : m ≤ n ∧ c ≤ b)
    (second : ∀ a t, result a t → Spends n b (next a) t after) :
    Spends n b (rule >>= next) s after :=
  Leads.bind ((first.weaken le).mono second)

theorem get_bind {next : Session → Rule β} (spends : Spends n b (next s) s after) :
    Spends n b (get >>= next) s after := spends

theorem lookKind_bind {next : TokenKind → Rule β} (spends : Spends n b (next s.look.kind) s after) :
    Spends n b (lookKind >>= next) s after := spends

theorem of_modify {change : Session → Session} {after : Unit → Session → Prop}
    (holds : after () (change s)) : Spends n b (modify change) s after := holds

theorem of_advance (more : s.look.kind ≠ .endOfInput) (within : s.Within n b) :
    Spends (n - 1) (b - 15) advance s fun _ t => t.Within (n - 1) (b - 15) :=
  of_modify (within.advance more)

/-- A token that stands for a value. -/
theorem advance_return (more : s.look.kind ≠ .endOfInput) (within : s.Within n b) (a : α) :
    Spends n b (do advance; return a) s fun _ t => t.Within n (b - 15) :=
  Leads.modify_bind (.of_pure ((within.advance more).mono (by omega)))

theorem of_fail (within : s.Within n b) (diagnostic : Diagnostic) :
    Spends n b (fail diagnostic) s result :=
  Leads.modify_bind (.of_throw ⟨nofun, fun _ => within.1, within.2⟩)

theorem of_failFull (stored : s.budget ≤ b) (diagnostic : Diagnostic) :
    Spends n b (failFull diagnostic) s result :=
  Leads.modify_bind (.modify_bind (.of_throw ⟨nofun, nofun, stored⟩))

theorem of_failExpecting (within : s.Within n b) (wanted : Text) :
    Spends n b (failExpecting wanted) s result :=
  get_bind (of_fail within _)

theorem of_ask (within : s.Within n b) (read : SymbolTable → Except AccessError α) :
    Spends n b (ask read) s fun a t => t = s ∧ read s.symbols = .ok a := by
  apply get_bind
  cases answer : read s.symbols with
  | ok a => exact of_pure ⟨rfl, rfl⟩
  | error error => exact Leads.of_throw ⟨nofun, within.halted⟩

theorem of_change (within : s.Within n b) {write : SymbolTable → Except AccessError SymbolTable}
    (keeps : ∀ symbols, write s.symbols = .ok symbols → symbols.size = s.symbols.size) :
    Spends n b (change write) s fun _ t => t.Within n b := by
  refine bind (of_ask within write) (by omega) ?_
  rintro symbols t ⟨rfl, written⟩
  apply of_modify
  have same := keeps symbols written
  obtain ⟨ahead, budget⟩ := within
  refine ⟨ahead, ?_⟩
  change (symbols.size : Int) + t.quads.size + 16 * t.ahead.length ≤ b
  rwa [same]

/-- Moving past a wanted token; `fails` says what is left if the current token is another one. -/
theorem of_expect (kind : TokenKind) (proper : kind ≠ .endOfInput) (within : s.Within n b)
    (fails : s.look.kind ≠ kind → n ≤ m) :
    Spends m b (expect kind) s fun _ t => t.Within (n - 1) (b - 15) := by
  apply lookKind_bind
  split
  · rename_i is
    exact of_modify (within.advance (is ▸ proper))
  · rename_i other
    exact of_failExpecting (within.mono ⟨fails other, Int.le_refl b⟩) _

/-- Noting when a rule is entered and left costs nothing. -/
theorem traced {name : Nonterminal} (within : s.Within n b)
    (inner : ∀ t, t.Within n b → t.look = s.look → Spends m c rule t fun _ u => u.Within k d) :
    Spends m c (Rule.traced name rule) s fun _ t => t.Within k d := by
  have lead := inner { s.note (.enter s.depth name) with depth := s.depth + 1 } within rfl
  cases ran : rule { s.note (.enter s.depth name) with depth := s.depth + 1 } with
  | ok a t =>
    have within' := Leads.ok lead ran
    exact Leads.of_ok (a := a) (t := { t.note (.leave (t.depth - 1) name) with depth := t.depth - 1 })
      (by simp only [Rule.traced, ran]) within'
  | error abort t =>
    have halted := Leads.error lead ran
    exact Leads.of_error (t := { t.note (.leave (t.depth - 1) name) with depth := t.depth - 1 })
      (by simp only [Rule.traced, ran]) halted

/-- A loop ends if each turn but the last one reads a token. -/
theorem iterate {step : α → Rule (Option α)}
    (reads : ∀ a t k, t.Within k b → k ≤ n → Spends n b (step a) t fun more u =>
      u.Within (if more.isSome then k - 1 else k) b)
    (fuel : Nat) : ∀ a t (k : Int), t.Within k b → k ≤ n → k < fuel →
      Spends n b (Rule.iterate step fuel a) t fun _ u => u.Within k b := by
  induction fuel with
  | zero =>
    intro a t k within _ enough
    have := within.1
    omega
  | succ fuel ih =>
    intro a t k within le enough
    refine bind (reads a t k within le) (by omega) fun more u within' => ?_
    cases more with
    | none => exact of_pure within'
    | some a' =>
      have within' : u.Within (k - 1) b := within'
      refine (ih a' u (k - 1) within' (by omega) (by omega)).mono fun _ v last => ?_
      exact last.mono (by omega)

theorem repeated {step : α → Rule (Option α)} {a : α} (within : s.Within n b)
    (reads : ∀ a t k, t.Within k b → k ≤ n → Spends n b (step a) t fun more u =>
      u.Within (if more.isSome then k - 1 else k) b) :
    Spends n b (Rule.repeated step a) s fun _ t => t.Within n b := by
  have enough := s.length_ahead_le
  have turns := iterate reads (s.unread.length + 2) a s s.ahead.length
    ⟨Int.le_refl _, within.2⟩ within.1 (by omega)
  have same : Rule.repeated step a s = Rule.iterate step (s.unread.length + 2) a s := rfl
  apply of_eq same
  exact turns.mono fun _ t within' => within'.mono ⟨within.1, Int.le_refl b⟩

end Spends

/-! ## Writing quads and symbols -/

theorem emit_spends (within : s.Within n b) (op : Opcode) (i j k : Int) :
    Spends n (b + 1) (emit op i j k) s fun _ t => t.Within n (b + 1) := by
  apply Spends.get_bind
  cases s.quads.next? with
  | none => exact .of_failFull (Int.le_trans within.2 (by omega)) _
  | some at_ =>
    refine Leads.modify_bind (.of_pure ⟨within.1, ?_⟩)
    have grown : (s.quads.add ⟨op, i, j, k⟩).size ≤ s.quads.size + 1 := by
      by_cases room : s.quads.size < s.quads.capacity
      · exact Nat.le_of_eq (QuadTable.size_add room _)
      · rw [QuadTable.add_of_full (by omega)]
        omega
    have budget : s.symbols.size + s.quads.size + 16 * s.ahead.length ≤ b := within.2
    change (s.symbols.size : Int) + (s.quads.add ⟨op, i, j, k⟩).size + 16 * s.ahead.length ≤ b + 1
    omega

theorem patch_spends (within : s.Within n b) (i : Nat) (target : Int) :
    Spends n b (patch i target) s fun _ t => t.Within n b := by
  refine .of_modify ⟨within.1, ?_⟩
  change (s.symbols.size : Int) + (s.quads.retarget i target).size + 16 * s.ahead.length ≤ b
  rw [QuadTable.size_retarget]
  exact within.2

theorem symbol_spends (within : s.Within n b) (name : Text) (value : Value) :
    Spends n (b + 1) (symbol name value) s fun _ t => t.Within n (b + 1) := by
  have budget : s.symbols.size + s.quads.size + 16 * s.ahead.length ≤ b := within.2
  apply Spends.get_bind
  obtain ⟨i, found, added⟩ | ⟨new, full, added⟩ | ⟨new, room, added⟩ :=
    s.symbols.add_cases name .constant value
  · rw [added]
    exact Leads.modify_bind (.of_pure (within.mono (by omega)))
  · rw [added]
    exact .of_failFull (Int.le_trans budget (by omega)) _
  · rw [added]
    refine Leads.modify_bind (.of_pure ⟨within.1, ?_⟩)
    change ((s.symbols.insert ⟨name, .constant, value⟩).size : Int) + s.quads.size +
      16 * s.ahead.length ≤ b + 1
    rw [SymbolTable.size_insert]
    omega

theorem constant_spends (within : s.Within n b) (value : Int64) :
    Spends n (b + 1) (constant value) s fun _ t => t.Within n (b + 1) :=
  symbol_spends within _ _

theorem temporary_spends (within : s.Within n b) (kind : Kind) :
    Spends n (b + 1) (temporary kind) s fun _ t => t.Within n (b + 1) := by
  apply Leads.modify_bind
  apply Spends.get_bind
  exact symbol_spends (s := { s with temporaries := s.temporaries + 1 }) within _ _

theorem resultKind_spends (within : s.Within n b) (i j : Nat) :
    Spends n b (resultKind i j) s fun _ t => t = s := by
  refine .bind (.of_ask within _) (by omega) ?_
  rintro kind t ⟨rfl, _⟩
  split
  · refine .bind (.of_ask within _) (by omega) ?_
    rintro kind t ⟨rfl, _⟩
    split <;> exact .of_pure rfl
  · exact .of_pure rfl

theorem arithmetic_spends (within : s.Within n b) (op : Opcode) (i j : Nat) :
    Spends n (b + 2) (arithmetic op i j) s fun _ t => t.Within n (b + 2) := by
  refine .bind (resultKind_spends within i j) (by omega) ?_
  rintro kind t rfl
  refine .bind (temporary_spends within kind) (by omega) fun result t within => ?_
  refine .bind (emit_spends within op i j result) (by omega) fun _ t within => ?_
  exact .of_pure (within.mono (by omega))

/-! ## Expressions -/

/-- A token whose name has no cell was refused one, because the table is full. -/
theorem registered_spends (more : s.look.kind ≠ .endOfInput) (within : s.Within n b) :
    Spends (n - 1) b registered s fun _ t => t.Within (n - 1) (b - 15) := by
  apply Spends.get_bind
  split
  · exact .bind (.of_advance more within) (by omega) fun _ t within => .of_pure within
  · exact .of_failFull within.2 _

/-- An identifier is read, or a table is full, or there is none; `fails` is about the last case. -/
theorem identifier_spends (within : s.Within n b) (fails : s.look.kind ≠ .identifier → n ≤ m)
    (le : n - 1 ≤ m) : Spends m b identifier s fun _ t => t.Within (n - 1) (b - 15) := by
  apply Spends.lookKind_bind
  split
  · rename_i is
    exact (registered_spends (by simp [is]) within).weaken ⟨le, Int.le_refl b⟩
  · rename_i other
    exact .of_failExpecting (within.mono ⟨fails other, Int.le_refl b⟩) _

theorem variableUse_spends (within : s.Within n b) (fails : s.look.kind ≠ .identifier → n ≤ m)
    (le : n - 1 ≤ m) : Spends m b variableUse s fun _ t => t.Within (n - 1) (b - 15) := by
  refine .traced within fun s within same => .get_bind ?_
  rw [← same] at fails
  refine .bind (identifier_spends within fails le) (by omega) fun i t within => ?_
  refine .bind (.of_ask within _) (by omega) ?_
  rintro usage t ⟨rfl, _⟩
  split
  · exact .of_fail (within.mono (by omega)) _
  · apply Spends.get_bind
    dsimp only
    split
    · exact Leads.set_bind (.of_pure within)
    · exact .of_pure within

theorem literal_spends (more : s.look.kind ≠ .endOfInput) (within : s.Within n b) :
    Spends n b literal s fun _ t => t.Within n b := by
  refine .traced within fun s within same => ?_
  rw [← same] at more
  exact Spends.relax (registered_spends more within) (by omega)

/-- A rule that reads something within fewer than `fuel` tokens, at no cost. -/
def Affordable (fuel : Nat) (rule : Rule α) : Prop :=
  ∀ s (n b : Int), s.Within n b → n < fuel → Spends n b rule s fun _ t => t.Within n b

section

variable {fuel : Nat} {expression : Rule Nat} (inner : Affordable fuel expression)

include inner

/-- Only a parenthesis leads back to an expression. -/
theorem factor_spends (within : s.Within n b) (enough : n ≤ fuel) :
    Spends n b (factor expression) s fun _ t => t.Within n b := by
  refine .traced within fun s within _ => ?_
  apply Spends.lookKind_bind
  split
  · rename_i is
    exact literal_spends (by simp [is]) within
  · rename_i is
    exact literal_spends (by simp [is]) within
  · refine (variableUse_spends within (fun _ => Int.le_refl n) (by omega)).mono fun _ t within => ?_
    exact within.mono (by omega)
  · rename_i is
    refine .bind (.of_advance (by simp [is]) within) (by omega) fun _ t within => ?_
    refine .bind (inner t _ _ within (by omega)) (by omega) fun v t within => ?_
    refine .bind (.of_expect _ nofun within fun _ => Int.le_refl _) (by omega) fun _ t within => ?_
    exact .of_pure (within.mono (by omega))
  · exact .of_failExpecting within _

omit inner in
/-- Operands with operations between them. -/
theorem operations_spend {operation? : TokenKind → Option Opcode} {operand : Rule Nat} {left : Nat}
    (ended : operation? .endOfInput = none)
    (reads : ∀ t (k d : Int), t.Within k d → k ≤ fuel → Spends k d operand t fun _ u => u.Within k d)
    (within : s.Within n b) (enough : n ≤ fuel) :
    Spends n b (repeated (operation operation? operand) left) s fun _ t => t.Within n b := by
  refine .repeated within fun left t k within le => .lookKind_bind ?_
  cases op : operation? t.look.kind with
  | none => exact .of_pure within
  | some op' =>
    have more : t.look.kind ≠ .endOfInput := fun last => by simp [last, ended] at op
    refine .bind (.of_advance more within) (by omega) fun _ u within => ?_
    refine .bind (reads u _ _ within (by omega)) (by omega) fun right u within => ?_
    refine .bind (arithmetic_spends within op' left right) (by omega) fun result u within => ?_
    exact .of_pure (within.mono (by omega))

theorem term_spends (within : s.Within n b) (enough : n ≤ fuel) :
    Spends n b (term expression) s fun _ t => t.Within n b := by
  refine .traced within fun s within _ => ?_
  refine .bind (factor_spends inner within enough) (by omega) fun left t within => ?_
  exact operations_spend rfl (fun _ _ _ => factor_spends inner) within enough

theorem signedTerm_spends (within : s.Within n b) (enough : n ≤ fuel) :
    Spends n b (signedTerm (term expression)) s fun _ t => t.Within n b := by
  apply Spends.lookKind_bind
  split
  · rename_i is
    refine .bind (.of_advance (by simp [is]) within) (by omega) fun _ t within => ?_
    exact Spends.relax (term_spends inner within (by omega)) (by omega)
  · rename_i is
    refine .bind (.of_advance (by simp [is]) within) (by omega) fun _ t within => ?_
    refine .bind (term_spends inner within (by omega)) (by omega) fun v t within => ?_
    refine .bind (constant_spends within _) (by omega) fun minus t within => ?_
    exact Spends.relax (arithmetic_spends within _ _ _) (by omega)
  · exact term_spends inner within enough

theorem simpleExpression_spends (within : s.Within n b) (enough : n ≤ fuel) :
    Spends n b (simpleExpression expression) s fun _ t => t.Within n b := by
  refine .traced within fun s within _ => ?_
  refine .bind (signedTerm_spends inner within enough) (by omega) fun left t within => ?_
  exact operations_spend rfl (fun _ _ _ => term_spends inner) within enough

end

theorem expressionWithin_affordable (fuel : Nat) : Affordable fuel (expressionWithin fuel) := by
  induction fuel with
  | zero =>
    intro s n b within enough
    have := within.1
    omega
  | succ fuel ih =>
    intro s n b within enough
    exact simpleExpression_spends ih within (by omega)

/-- An expression costs nothing but its tokens. -/
theorem expression_spends (within : s.Within n b) :
    Spends n b expression s fun _ t => t.Within n b := by
  have enough := s.length_ahead_le
  have spends := expressionWithin_affordable (s.unread.length + 2) s s.ahead.length b
    ⟨Int.le_refl _, within.2⟩ (by omega)
  apply Spends.of_eq (expression_eq s)
  exact Spends.relax spends ⟨⟨within.1, Int.le_refl b⟩, within.1, Int.le_refl b⟩

theorem operand_spends (within : s.Within n b) : Spends n b operand s fun _ t => t.Within n b := by
  apply Spends.lookKind_bind
  split
  · rename_i is
    exact literal_spends (by simp [is]) within
  · exact expression_spends within

theorem relExpression_spends (within : s.Within n b) :
    Spends n b relExpression s fun _ t => t.Within n b := by
  refine .traced within fun s within _ => ?_
  refine .bind (expression_spends within) (by omega) fun left t within => .lookKind_bind ?_
  cases jump : falseJump? t.look.kind with
  | none => exact .of_failExpecting within _
  | some jump' =>
    have more : t.look.kind ≠ .endOfInput := fun last => by simp [last, falseJump?] at jump
    refine .bind (.of_advance more within) (by omega) fun _ u within => ?_
    refine .bind (expression_spends within) (by omega) fun right u within => ?_
    refine .bind (arithmetic_spends within _ _ _) (by omega) fun difference u within => ?_
    exact Spends.relax (emit_spends within _ _ _ _) (by omega)

/-! ## Statements

Every statement starts by reading a token, so whatever comes of it, fewer tokens are ahead. -/

theorem assignment_spends (is : s.look.kind = .identifier) (within : s.Within n b) :
    Spends (n - 1) b assignment s fun _ t => t.Within (n - 1) b := by
  refine .traced within fun s within same => ?_
  rw [← same] at is
  refine .bind (variableUse_spends within (fun other => absurd is other) (Int.le_refl _)) (by omega)
    fun target t within => ?_
  refine .bind (.of_expect _ nofun within fun _ => Int.le_refl _) (by omega) fun _ t within => ?_
  refine .bind (operand_spends within) (by omega) fun source t within => ?_
  refine .bind (emit_spends within _ _ _ _) (by omega) fun _ t within => ?_
  exact .of_pure (within.mono (by omega))

theorem countsDown_spends (within : s.Within n b) :
    Spends n b countsDown s fun _ t => t.Within n (b - 15) := by
  apply Spends.lookKind_bind
  split
  · rename_i is
    exact .advance_return (by simp [is]) within false
  · rename_i is
    exact .advance_return (by simp [is]) within true
  · exact .of_failExpecting within _

theorem counterStep_spends (within : s.Within n b) (down : Bool) (one : Nat) :
    Spends n (b + 1) (counterStep down one) s fun _ t => t.Within n (b + 1) := by
  unfold counterStep
  split
  · exact constant_spends within _
  · exact .of_pure (within.mono (by omega))

theorem writeln_spends (is : s.look.kind = .kwWriteln) (within : s.Within n b) :
    Spends (n - 1) b writeln s fun _ t => t.Within (n - 1) b := by
  refine .traced within fun s within same => ?_
  rw [← same] at is
  refine .bind (.of_advance (by simp [is]) within) (by omega) fun _ t within => ?_
  refine .bind (.of_expect _ nofun within fun _ => Int.le_refl _) (by omega) fun _ t within => ?_
  refine .bind (operand_spends within) (by omega) fun v t within => ?_
  refine .bind (.of_expect _ nofun within fun _ => Int.le_refl _) (by omega) fun _ t within => ?_
  refine .bind (emit_spends within _ _ _ _) (by omega) fun _ t within => ?_
  exact .of_pure (within.mono (by omega))

theorem readln_spends (is : s.look.kind = .kwReadln) (within : s.Within n b) :
    Spends (n - 1) b readln s fun _ t => t.Within (n - 1) b := by
  refine .traced within fun s within same => ?_
  rw [← same] at is
  refine .bind (.of_advance (by simp [is]) within) (by omega) fun _ t within => ?_
  refine .bind (.of_expect _ nofun within fun _ => Int.le_refl _) (by omega) fun _ t within => ?_
  refine .bind (variableUse_spends within (fun _ => Int.le_refl _) (by omega)) (by omega) fun v t within => ?_
  refine .bind (.of_expect _ nofun within fun _ => Int.le_refl _) (by omega) fun _ t within => ?_
  refine .bind (emit_spends within _ _ _ _) (by omega) fun _ t within => ?_
  exact .of_pure (within.mono (by omega))

section

variable {fuel : Nat} {statement : Rule Unit} (inner : Affordable fuel statement)

include inner

theorem statements_spend (within : s.Within n b) (enough : n < fuel) :
    Spends n b (statements statement) s fun _ t => t.Within n b := by
  refine .bind (inner s n b within enough) (by omega) fun _ t within => .repeated within ?_
  intro _ t k within le
  apply Spends.lookKind_bind
  split
  · rename_i is
    refine .bind (.of_advance (by simp [is]) within) (by omega) fun _ u within => ?_
    refine .bind (inner u _ _ within (by omega)) (by omega) fun _ u within => ?_
    exact .of_pure (within.mono (by omega))
  · exact .of_pure within

/-- `fails` says what is left if there is no `BEGIN`. -/
theorem blockBody_spends (within : s.Within n b) (enough : n ≤ fuel)
    (fails : s.look.kind ≠ .kwBegin → n ≤ m) (le : n - 1 ≤ m) :
    Spends m b (blockBody statement) s fun _ t => t.Within (n - 1) b := by
  refine .traced within fun s within same => ?_
  rw [← same] at fails
  refine .bind (.of_expect .kwBegin nofun within fails) (by omega) fun _ t within => ?_
  refine .bind (statements_spend inner within (by omega)) (by omega) fun _ t within => ?_
  exact Spends.relax (.of_expect .kwEnd nofun within fun _ => Int.le_refl _) (by omega)

theorem ifStatement_spends (is : s.look.kind = .kwIf) (within : s.Within n b) (enough : n ≤ fuel) :
    Spends (n - 1) b (ifStatement statement) s fun _ t => t.Within (n - 1) b := by
  refine .traced within fun s within same => ?_
  rw [← same] at is
  refine .bind (.of_advance (by simp [is]) within) (by omega) fun _ t within => ?_
  refine .bind (relExpression_spends within) (by omega) fun test t within => ?_
  refine .bind (.of_expect _ nofun within fun _ => Int.le_refl _) (by omega) fun _ t within => ?_
  refine .bind (inner t _ _ within (by omega)) (by omega) fun _ t within => .lookKind_bind ?_
  split
  · rename_i isElse
    refine .bind (.of_advance (by simp [isElse]) within) (by omega) fun _ t within => ?_
    refine .bind (emit_spends within _ _ _ _) (by omega) fun skip t within => .get_bind ?_
    refine .bind (patch_spends within _ _) (by omega) fun _ t within => ?_
    refine .bind (inner t _ _ within (by omega)) (by omega) fun _ t within => .get_bind ?_
    exact Spends.relax (patch_spends within _ _) (by omega)
  · apply Spends.get_bind
    exact Spends.relax (patch_spends within _ _) (by omega)

theorem whileStatement_spends (is : s.look.kind = .kwWhile) (within : s.Within n b)
    (enough : n ≤ fuel) :
    Spends (n - 1) b (whileStatement statement) s fun _ t => t.Within (n - 1) b := by
  refine .traced within fun s within same => ?_
  rw [← same] at is
  refine .bind (.of_advance (by simp [is]) within) (by omega) fun _ t within => .get_bind ?_
  refine .bind (relExpression_spends within) (by omega) fun test t within => ?_
  refine .bind (.of_expect _ nofun within fun _ => Int.le_refl _) (by omega) fun _ t within => ?_
  refine .bind (inner t _ _ within (by omega)) (by omega) fun _ t within => ?_
  refine .bind (emit_spends within _ _ _ _) (by omega) fun _ t within => .get_bind ?_
  exact Spends.relax (patch_spends within _ _) (by omega)

theorem repeatStatement_spends (is : s.look.kind = .kwRepeat) (within : s.Within n b)
    (enough : n ≤ fuel) :
    Spends (n - 1) b (repeatStatement statement) s fun _ t => t.Within (n - 1) b := by
  refine .traced within fun s within same => ?_
  rw [← same] at is
  refine .bind (.of_advance (by simp [is]) within) (by omega) fun _ t within => .get_bind ?_
  refine .bind (statements_spend inner within (by omega)) (by omega) fun _ t within => ?_
  refine .bind (.of_expect _ nofun within fun _ => Int.le_refl _) (by omega) fun _ t within => ?_
  refine .bind (relExpression_spends within) (by omega) fun test t within => ?_
  exact Spends.relax (patch_spends within _ _) (by omega)

/-- A counting loop writes seven quads. -/
theorem countingLoop_spends (within : s.Within n b) (enough : n < fuel) (down : Bool)
    (counter start limit step bound distance : Nat) :
    Spends n (b + 7) (countingLoop statement down counter start limit step bound distance) s
      fun _ t => t.Within n (b + 7) := by
  refine .bind (emit_spends within _ _ _ _) (by omega) fun _ t within => ?_
  refine .bind (emit_spends within _ _ _ _) (by omega) fun _ t within => ?_
  refine .bind (emit_spends within _ _ _ _) (by omega) fun _ t within => ?_
  refine .bind (emit_spends within _ _ _ _) (by omega) fun guard t within => .get_bind ?_
  refine .bind (inner t _ _ within enough) (by omega) fun _ t within => ?_
  refine .bind (emit_spends within _ _ _ _) (by omega) fun _ t within => ?_
  refine .bind (emit_spends within _ _ _ _) (by omega) fun _ t within => ?_
  refine .bind (emit_spends within _ _ _ _) (by omega) fun _ t within => .get_bind ?_
  exact Spends.relax (patch_spends within _ _) (by omega)

theorem forStatement_spends (is : s.look.kind = .kwFor) (within : s.Within n b) (enough : n ≤ fuel) :
    Spends (n - 1) b (forStatement statement) s fun _ t => t.Within (n - 1) b := by
  refine .traced within fun s within same => ?_
  rw [← same] at is
  refine .bind (.of_advance (by simp [is]) within) (by omega) fun _ t within => ?_
  refine .bind (variableUse_spends within (fun _ => Int.le_refl _) (by omega)) (by omega)
    fun counter t within => ?_
  refine .bind (.of_expect _ nofun within fun _ => Int.le_refl _) (by omega) fun _ t within => ?_
  refine .bind (expression_spends within) (by omega) fun start t within => ?_
  refine .bind (countsDown_spends within) (by omega) fun down t within => ?_
  refine .bind (expression_spends within) (by omega) fun limit t within => ?_
  refine .bind (.of_expect _ nofun within fun _ => Int.le_refl _) (by omega) fun _ t within => ?_
  refine .bind (constant_spends within _) (by omega) fun one t within => ?_
  refine .bind (counterStep_spends within down one) (by omega) fun step t within => ?_
  refine .bind (.of_ask within _) (by omega) ?_
  rintro kind t ⟨rfl, _⟩
  refine .bind (temporary_spends within kind) (by omega) fun bound t within => ?_
  refine .bind (resultKind_spends within _ _) (by omega) ?_
  rintro kind t rfl
  refine .bind (temporary_spends within kind) (by omega) fun distance t within => ?_
  exact Spends.relax (countingLoop_spends inner within (by omega) ..) (by omega)

/-- A statement that starts with a proper token reads it, on all of its paths. -/
theorem dispatch_spends (within : s.Within n b) (enough : n ≤ fuel) :
    Spends (if s.look.kind.startsStatement then n - 1 else n) b (dispatch statement) s
      fun _ t => t.Within n b := by
  have drop {rule : Rule Unit} (spends : Spends (n - 1) b rule s fun _ t => t.Within (n - 1) b) :
      Spends (n - 1) b rule s fun _ t => t.Within n b :=
    spends.mono fun _ t within => within.mono (by omega)
  apply Spends.lookKind_bind
  cases is : s.look.kind with
  | identifier => exact drop (assignment_spends is within)
  | kwBegin =>
    exact drop (blockBody_spends inner within enough (fun other => absurd is other) (Int.le_refl _))
  | kwIf => exact drop (ifStatement_spends inner is within enough)
  | kwWhile => exact drop (whileStatement_spends inner is within enough)
  | kwRepeat => exact drop (repeatStatement_spends inner is within enough)
  | kwFor => exact drop (forStatement_spends inner is within enough)
  | kwWriteln => exact drop (writeln_spends is within)
  | kwReadln => exact drop (readln_spends is within)
  | kwEnd | kwUntil => exact .of_pure within
  | _ => exact .of_failExpecting within _

end

end Rule

end MiniPascal
