import MiniPascal.Proofs.Compiler.ReadingExpressions

/-! # What a statement without errors has read

A statement rule that returns in a session without errors has read one statement of the grammar, and
if that statement ends with an `IF` that an `ELSE` could continue, no `ELSE` follows. After an error
the rule may go on at a later statement; the session is then no longer without errors.
-/

namespace MiniPascal.Rule

open Session Syntax

variable {s t : Session}

/-- A statement of a category was read. -/
def ReadsStmt (form : StmtForm) (s : Session) (_ : Unit) (t : Session) : Prop :=
  t.Clean → ∃ (stmt : Stmt) (d : Bool), stmt.Spelled True form d s.ahead t.ahead ∧
    (d = true → t.look.kind ≠ .kwElse) ∧ ∀ name ∈ stmt.names, t.symbols.Usable name

theorem ReadsStmt.later {form : StmtForm} {u : Session} (read : ReadsStmt form s () t)
    (valid : t.Valid) (moves : Moves False t u) (clean : u.Clean) :
    ∃ (stmt : Stmt) (d : Bool), stmt.Spelled True form d s.ahead t.ahead ∧
      (d = true → t.look.kind ≠ .kwElse) ∧ ∀ name ∈ stmt.names, u.symbols.Usable name := by
  obtain ⟨stmt, d, spelled, closed, usable⟩ := read (moves.clean valid clean)
  exact ⟨stmt, d, spelled, closed, fun name member => (usable name member).extend moves.extends⟩

theorem ReadsVariable.later {i : Nat} {u : Session} (read : ReadsVariable s i t)
    (moves : Moves False t u) : u.symbols.Usable s.look.text :=
  read.2.2.1.extend moves.extends

theorem ReadsVariable.target {i : Nat} {u : Session} (read : ReadsVariable s i t)
    (moves : Moves False t u) : u.symbols.Assignable i :=
  read.2.2.2.later moves.extends.lookup

/-- A quad that uses two cells, or one. -/
theorem wellFormed_mov {a c cells : Nat} (source : a < cells) (target : c < cells) :
    Quad.WellFormed cells ⟨.mov, a, 0, c⟩ := by
  refine ⟨rfl, ?_⟩
  simp [Quad.cellFields]
  omega

theorem wellFormed_print {c cells : Nat} (bound : c < cells) :
    Quad.WellFormed cells ⟨.print, 0, 0, c⟩ := by
  refine ⟨rfl, ?_⟩
  simp [Quad.cellFields]
  omega

theorem wellFormed_read {c cells : Nat} (bound : c < cells) :
    Quad.WellFormed cells ⟨.read, 0, 0, c⟩ := by
  refine ⟨rfl, ?_⟩
  simp [Quad.cellFields]
  omega

theorem wellFormed_jmp {cells : Nat} (c : Int) : Quad.WellFormed cells ⟨.jmp, 0, 0, c⟩ :=
  ⟨rfl, nofun⟩

/-! ## Simple statements -/

theorem assignment_does (s : Session) : Does False assignment s (ReadsStmt .one s) := by
  refine Does.traced (P := fun _ => True) (fun _ _ _ _ _ _ _ read => read)
    (fun _ _ _ _ => trivial) (fun s _ => ?_) trivial
  refine .bind variableUse_does fun target t _ _ variable_ => ?_
  refine .bind (.of_expect _ nofun) fun _ u moves _ here => ?_
  obtain ⟨assigns, rfl⟩ := here
  refine .bind operand_does fun source u moves' valid read => ?_
  have bound := Nat.lt_of_lt_of_le variable_.1.1 (moves.trans moves').size_le
  have target := variable_.target (moves.trans moves')
  refine .bind (emit_does (wellFormed_mov read.1 bound) fun _ => target) fun _ w last _ emitted => .of_pure ?_
  obtain ⟨_, _, rfl⟩ := emitted
  intro clean
  obtain ⟨e, spelled, usable⟩ := read.later valid last clean
  refine ⟨.assignment s.look.text e, false, ?_, nofun, ?_⟩
  · rw [variable_.1.2, ahead_eq_cons (s := t) (by simp [assigns])]
    exact .assignment variable_.2.1 assigns spelled
  · intro name member
    obtain rfl | member := List.mem_cons.mp member
    · exact variable_.later ((moves.trans moves').trans last)
    · exact usable name member

theorem writeln_does (is : s.look.kind = .kwWriteln) : Does False writeln s (ReadsStmt .one s) := by
  refine Does.traced (P := fun s => s.look.kind = .kwWriteln) (fun _ _ _ _ _ _ _ read => read)
    (fun _ _ _ is => is) (fun s is => ?_) is
  have more : s.look.kind ≠ .endOfInput := by simp [is]
  refine .bind (.of_advance more) fun _ t _ _ same => ?_
  refine .bind (.of_expect _ nofun) fun _ u _ _ here => ?_
  obtain ⟨opens, rfl⟩ := here
  refine .bind operand_does fun v u _ valid read => ?_
  refine .bind (.of_expect _ nofun) fun _ w moves _ here => ?_
  obtain ⟨closes, rfl⟩ := here
  have bound := Nat.lt_of_lt_of_le read.1 moves.size_le
  refine .bind (emit_does (wellFormed_print bound) nofun) fun _ x last _ emitted => .of_pure ?_
  obtain ⟨_, _, rfl⟩ := emitted
  intro clean
  obtain ⟨e, spelled, usable⟩ := read.later valid (moves.trans last) clean
  refine ⟨.writeln e, false, ?_, nofun, usable⟩
  rw [ahead_eq_cons (s := u) (by simp [closes])] at spelled
  rw [ahead_eq_cons more, ← same, ahead_eq_cons (s := t) (by simp [opens])]
  exact .writeln is opens spelled closes

theorem readln_does (is : s.look.kind = .kwReadln) : Does False readln s (ReadsStmt .one s) := by
  refine Does.traced (P := fun s => s.look.kind = .kwReadln) (fun _ _ _ _ _ _ _ read => read)
    (fun _ _ _ is => is) (fun s is => ?_) is
  have more : s.look.kind ≠ .endOfInput := by simp [is]
  refine .bind (.of_advance more) fun _ t _ _ same => ?_
  refine .bind (.of_expect _ nofun) fun _ u _ _ here => ?_
  obtain ⟨opens, rfl⟩ := here
  refine .bind variableUse_does fun v u _ _ variable_ => ?_
  refine .bind (.of_expect _ nofun) fun _ w moves _ here => ?_
  obtain ⟨closes, rfl⟩ := here
  have bound := Nat.lt_of_lt_of_le variable_.1.1 moves.size_le
  refine .bind (emit_does (wellFormed_read bound) fun _ => variable_.target moves)
    fun _ x last _ emitted => .of_pure ?_
  obtain ⟨_, _, rfl⟩ := emitted
  intro clean
  refine ⟨.readln t.advance.look.text, false, ?_, nofun, ?_⟩
  · rw [ahead_eq_cons more, ← same, ahead_eq_cons (s := t) (by simp [opens]), variable_.1.2,
      ahead_eq_cons (s := u) (by simp [closes])]
    exact .readln is opens variable_.2.1 closes
  · simpa [Stmt.names] using variable_.later (moves.trans last)

/-! ## Statements with statements in them -/

/-- Statements between `BEGIN` and `END` were read. -/
def ReadsBlock (s : Session) (_ : Unit) (t : Session) : Prop :=
  t.Clean → ∃ (first last : Token) (input : List Token) (stmt : Stmt) (d : Bool),
    s.ahead = first :: input ∧ first.kind = .kwBegin ∧ last.kind = .kwEnd ∧
      stmt.Spelled True .many d input (last :: t.ahead) ∧
        ∀ name ∈ stmt.names, t.symbols.Usable name

section

variable {statement : Rule Unit} (inner : ∀ s, Does False statement s (ReadsStmt .one s))

include inner

theorem statements_does (s : Session) : Does False (statements statement) s (ReadsStmt .many s) := by
  have start : Does False statement s (ReadsStmt .many s) := by
    refine (inner s).mono fun _ t _ _ read clean => ?_
    obtain ⟨stmt, d, spelled, closed, usable⟩ := read clean
    exact ⟨stmt, d, .single spelled, closed, usable⟩
  refine .bind start fun _ t _ _ read => ?_
  refine .repeated (I := ReadsStmt .many s) (fun _ t read => ?_) read
  refine .lookKind_bind ?_
  split
  · rename_i is
    have more : t.look.kind ≠ .endOfInput := by simp [is]
    intro valid
    refine Does.bind (.of_advance more) (fun _ u moves _ same => ?_) valid
    subst same
    refine .bind (inner _) fun _ u moves' _ read' => .of_pure fun clean => ?_
    obtain ⟨first, d, before, _, usable⟩ := read.later valid (moves.trans moves') clean
    obtain ⟨second, d', last, closed, usable'⟩ := read' clean
    rw [ahead_eq_cons more] at before
    refine ⟨.sequence first second, d', .sequence before is last, closed, fun name member => ?_⟩
    obtain member | member := List.mem_append.mp member
    · exact usable name member
    · exact usable' name member
  · exact .of_pure read

theorem blockBody_does (s : Session) : Does False (blockBody statement) s (ReadsBlock s) := by
  refine Does.traced (P := fun _ => True) (fun _ _ _ _ _ _ _ read => read)
    (fun _ _ _ _ => trivial) (fun s _ => ?_) trivial
  refine .bind (.of_expect _ nofun) fun _ t _ _ here => ?_
  obtain ⟨begins, rfl⟩ := here
  refine .bind (statements_does inner _) fun _ t _ valid read => ?_
  refine (Does.of_expect .kwEnd nofun).mono fun _ u _ moves here => ?_
  obtain ⟨ends, rfl⟩ := here
  intro clean
  obtain ⟨stmt, d, spelled, _, usable⟩ := read.later valid moves clean
  rw [ahead_eq_cons (s := t) (by simp [ends])] at spelled
  exact ⟨s.look, t.look, _, stmt, d, ahead_eq_cons (by simp [begins]), begins, ends, spelled, usable⟩

theorem nestedBlock_does (s : Session) : Does False (blockBody statement) s (ReadsStmt .one s) := by
  refine (blockBody_does inner s).mono fun _ t _ _ read clean => ?_
  obtain ⟨first, last, input, stmt, d, tokens, begins, ends, spelled, usable⟩ := read clean
  refine ⟨stmt, false, ?_, nofun, usable⟩
  rw [tokens]
  exact .block begins spelled ends

theorem ifStatement_does (is : s.look.kind = .kwIf) :
    Does False (ifStatement statement) s (ReadsStmt .one s) := by
  refine Does.traced (P := fun s => s.look.kind = .kwIf) (fun _ _ _ _ _ _ _ read => read)
    (fun _ _ _ is => is) (fun s is => ?_) is
  have more : s.look.kind ≠ .endOfInput := by simp [is]
  refine .bind (.of_advance more) fun _ t _ _ same => ?_
  refine .bind relExpression_does fun test t' _ valid read => ?_
  refine .bind (.of_expect _ nofun) fun _ u moves _ here => ?_
  obtain ⟨isThen, rfl⟩ := here
  refine .bind (inner _) fun _ u moves' valid' body => .lookKind_bind ?_
  have jump := (moves.trans moves').jumpAt read.1
  have tokens : s.ahead = s.look :: t.ahead := same ▸ ahead_eq_cons more
  have thens : t'.ahead = t'.look :: t'.advance.ahead := ahead_eq_cons (by simp [isThen])
  split
  · rename_i isElse
    have elses : u.ahead = u.look :: u.advance.ahead := ahead_eq_cons (by simp [isElse])
    refine .bind (.of_advance (by simp [isElse])) fun _ v first _ same => ?_
    subst same
    refine .bind (emit_does (wellFormed_jmp _) nofun) fun skip v second _ here => ?_
    obtain ⟨rfl, room, rfl⟩ := here
    refine .nextQuad_bind (.bind (patch_does ((first.trans second).jumpAt jump)) ?_)
    intro _ v third _ here
    refine .bind (inner _) fun _ w fourth valid'' other => .nextQuad_bind ?_
    have skips := (third.trans fourth).jumpAt (jumpAt_emitted room rfl)
    refine (patch_does skips).mono fun _ x _ fifth last => ?_
    intro clean
    have path := ((first.trans second).trans (third.trans fourth)).trans fifth
    obtain ⟨r, relation, usable⟩ := read.later valid ((moves.trans moves').trans path) clean
    obtain ⟨stmt, d, spelled, closed, usable'⟩ := body.later valid' path clean
    obtain ⟨stmt', d', spelled', closed', usable''⟩ := other.later valid'' fifth clean
    -- no `ELSE` can follow a statement that is still open
    have own : d = false := by
      cases d with
      | false => rfl
      | true => exact absurd isElse (closed rfl)
    rw [thens] at relation
    rw [elses] at spelled
    rw [here] at spelled'
    subst last
    refine ⟨.ifElse r stmt stmt', d', ?_, closed', fun name member => ?_⟩
    · rw [tokens]
      exact .ifElse is relation isThen spelled (fun _ => own) isElse spelled'
    · simp only [Stmt.names, List.mem_append] at member
      obtain member | member | member := member
      · exact usable name member
      · exact usable' name member
      · exact usable'' name member
  · rename_i noElse
    refine .nextQuad_bind ((patch_does jump).mono fun _ v _ last here => ?_)
    intro clean
    obtain ⟨r, relation, usable⟩ := read.later valid ((moves.trans moves').trans last) clean
    obtain ⟨stmt, d, spelled, closed, usable'⟩ := body.later valid' last clean
    rw [thens] at relation
    subst here
    refine ⟨.ifThen r stmt, true, ?_, fun _ => noElse, fun name member => ?_⟩
    · rw [tokens]
      exact .ifThen is relation isThen spelled
    · obtain member | member := List.mem_append.mp member
      · exact usable name member
      · exact usable' name member

theorem whileStatement_does (is : s.look.kind = .kwWhile) :
    Does False (whileStatement statement) s (ReadsStmt .one s) := by
  refine Does.traced (P := fun s => s.look.kind = .kwWhile) (fun _ _ _ _ _ _ _ read => read)
    (fun _ _ _ is => is) (fun s is => ?_) is
  have more : s.look.kind ≠ .endOfInput := by simp [is]
  refine .bind (.of_advance more) fun _ t _ _ same => .nextQuad_bind ?_
  refine .bind relExpression_does fun test t' _ valid read => ?_
  refine .bind (.of_expect _ nofun) fun _ u moves _ here => ?_
  obtain ⟨isDo, rfl⟩ := here
  refine .bind (inner _) fun _ u moves' valid' body => ?_
  refine .bind (emit_does (wellFormed_jmp _) nofun) fun _ v first _ here => .nextQuad_bind ?_
  obtain ⟨_, _, rfl⟩ := here
  have jump := ((moves.trans moves').trans first).jumpAt read.1
  refine (patch_does jump).mono fun _ w _ last here => ?_
  intro clean
  have path := first.trans last
  obtain ⟨r, relation, usable⟩ := read.later valid ((moves.trans moves').trans path) clean
  obtain ⟨stmt, d, spelled, closed, usable'⟩ := body.later valid' path clean
  subst here
  rw [ahead_eq_cons (s := t') (by simp [isDo])] at relation
  refine ⟨.whileLoop r stmt, d, ?_, closed, fun name member => ?_⟩
  · rw [ahead_eq_cons more, ← same]
    exact .whileLoop is relation isDo spelled
  · obtain member | member := List.mem_append.mp member
    · exact usable name member
    · exact usable' name member

theorem repeatStatement_does (is : s.look.kind = .kwRepeat) :
    Does False (repeatStatement statement) s (ReadsStmt .one s) := by
  refine Does.traced (P := fun s => s.look.kind = .kwRepeat) (fun _ _ _ _ _ _ _ read => read)
    (fun _ _ _ is => is) (fun s is => ?_) is
  have more : s.look.kind ≠ .endOfInput := by simp [is]
  refine .bind (.of_advance more) fun _ t _ _ same => .nextQuad_bind ?_
  refine .bind (statements_does inner _) fun _ t' _ valid body => ?_
  refine .bind (.of_expect _ nofun) fun _ u moves _ here => ?_
  obtain ⟨isUntil, rfl⟩ := here
  refine .bind relExpression_does fun test u moves' valid' read => ?_
  refine (patch_does read.1).mono fun _ w _ last here => ?_
  intro clean
  obtain ⟨r, relation, usable⟩ := read.later valid' last clean
  obtain ⟨stmt, d, spelled, _, usable'⟩ := body.later valid ((moves.trans moves').trans last) clean
  subst here
  rw [ahead_eq_cons (s := t') (by simp [isUntil])] at spelled
  refine ⟨.repeatLoop stmt r, false, ?_, nofun, fun name member => ?_⟩
  · rw [ahead_eq_cons more, ← same]
    exact .repeatLoop is spelled isUntil relation
  · obtain member | member := List.mem_append.mp member
    · exact usable' name member
    · exact usable name member

end

theorem countsDown_does :
    Does False countsDown s fun down t =>
      (s.look.kind = if down then .kwDownto else .kwTo) ∧ t = s.advance := by
  refine .lookKind_bind ?_
  split
  · rename_i is
    refine .bind (.of_advance (by simp [is])) fun _ t _ _ same => .of_pure ⟨?_, same⟩
    simp [is]
  · rename_i is
    refine .bind (.of_advance (by simp [is])) fun _ t _ _ same => .of_pure ⟨?_, same⟩
    simp [is]
  · exact .of_failExpecting _

theorem counterStep_does {down : Bool} {one : Nat} (bound : one < s.symbols.size) :
    Does False (counterStep down one) s fun step t => step < t.symbols.size ∧ t.ahead = s.ahead := by
  cases down with
  | true => exact constant_does (.inr rfl)
  | false => exact .of_pure ⟨bound, rfl⟩

section

variable {statement : Rule Unit} (inner : ∀ s, Does False statement s (ReadsStmt .one s))

include inner

theorem countingLoop_does {down : Bool} {counter start limit step bound distance : Nat}
    (cells : ∀ cell ∈ [counter, start, limit, step, bound, distance], cell < s.symbols.size)
    (targets : ∀ cell ∈ [counter, bound, distance], s.symbols.Assignable cell) :
    Does False (countingLoop statement down counter start limit step bound distance) s
      (ReadsStmt .one s) := by
  have moving {t : Session} (moves : Moves False s t) :
      ∀ cell ∈ [counter, start, limit, step, bound, distance], cell < t.symbols.size :=
    fun cell member => Nat.lt_of_lt_of_le (cells cell member) moves.size_le
  have storing {t : Session} (moves : Moves False s t) :
      ∀ cell ∈ [counter, bound, distance], t.symbols.Assignable cell :=
    fun cell member => (targets cell member).later moves.extends.lookup
  have subtraction {t : Session} (moves : Moves False s t) : Quad.WellFormed t.symbols.size
      ⟨.sub, (if down then counter else bound : Nat), (if down then bound else counter : Nat),
        distance⟩ := by
    have cells := moving moves
    refine wellFormed_arithmetic (by simp) ?_ ?_ (cells _ (by simp))
    · split <;> exact cells _ (by simp)
    · split <;> exact cells _ (by simp)
  refine .bind (emit_does (wellFormed_mov (cells _ (by simp)) (cells _ (by simp)))
    fun _ => targets _ (by simp)) ?_
  intro _ t₁ moves₁ _ here
  obtain ⟨_, _, rfl⟩ := here
  refine .bind (emit_does (wellFormed_mov (moving moves₁ _ (by simp)) (moving moves₁ _ (by simp)))
    fun _ => storing moves₁ _ (by simp)) ?_
  intro _ t₂ moves₂ _ here
  obtain ⟨_, _, rfl⟩ := here
  refine .bind (emit_does (subtraction (moves₁.trans moves₂)) fun _ =>
    storing (moves₁.trans moves₂) _ (by simp)) fun _ t₃ moves₃ _ here => ?_
  obtain ⟨_, _, rfl⟩ := here
  have path := (moves₁.trans moves₂).trans moves₃
  refine .bind (emit_does (wellFormed_conditional rfl _ (moving path _ (by simp))) nofun) ?_
  intro guard t₄ moves₄ _ here
  obtain ⟨rfl, room, rfl⟩ := here
  refine .nextQuad_bind (.bind (inner _) fun _ t₅ moves₅ valid₅ body => ?_)
  have path := (path.trans moves₄).trans moves₅
  have addition : Quad.WellFormed t₅.symbols.size ⟨.add, counter, step, counter⟩ :=
    wellFormed_arithmetic (by simp) (moving path _ (by simp)) (moving path _ (by simp))
      (moving path _ (by simp))
  refine .bind (emit_does addition fun _ => storing path _ (by simp)) fun _ t₆ moves₆ _ here => ?_
  obtain ⟨_, _, rfl⟩ := here
  refine .bind (emit_does (subtraction (path.trans moves₆)) fun _ =>
    storing (path.trans moves₆) _ (by simp)) fun _ t₇ moves₇ _ here => ?_
  obtain ⟨_, _, rfl⟩ := here
  have path := (path.trans moves₆).trans moves₇
  refine .bind (emit_does (wellFormed_conditional rfl _ (moving path _ (by simp))) nofun) ?_
  intro _ t₈ moves₈ _ here
  obtain ⟨_, _, rfl⟩ := here
  have later := (moves₆.trans moves₇).trans moves₈
  have jump := (moves₅.trans later).jumpAt (jumpAt_emitted room rfl)
  refine .nextQuad_bind ((patch_does jump).mono fun _ t₉ _ last here => ?_)
  subst here
  intro clean
  exact body.later valid₅ (later.trans last) clean

theorem forStatement_does (is : s.look.kind = .kwFor) :
    Does False (forStatement statement) s (ReadsStmt .one s) := by
  refine Does.traced (P := fun s => s.look.kind = .kwFor) (fun _ _ _ _ _ _ _ read => read)
    (fun _ _ _ is => is) (fun s is => ?_) is
  have more : s.look.kind ≠ .endOfInput := by simp [is]
  refine .bind (.of_advance more) fun _ t _ _ same => ?_
  refine .bind variableUse_does fun counter t₁ _ _ variable_ => ?_
  refine .bind (.of_expect _ nofun) fun _ t₂ moves₁ _ here => ?_
  obtain ⟨assigns, rfl⟩ := here
  refine .bind expression_does fun start t₂ moves₂ valid₂ read => ?_
  refine .bind countsDown_does fun down t₃ moves₃ _ here => ?_
  obtain ⟨direction, rfl⟩ := here
  refine .bind expression_does fun limit t₃ moves₄ valid₃ read' => ?_
  refine .bind (.of_expect _ nofun) fun _ t₄ moves₅ _ here => ?_
  obtain ⟨isDo, rfl⟩ := here
  refine .bind (constant_does (.inl rfl)) fun one t₄ moves₆ _ made₁ => ?_
  refine .bind (counterStep_does made₁.1) fun step t₅ moves₇ _ made₂ => ?_
  have limited := Nat.lt_of_lt_of_le read'.1 ((moves₅.trans moves₆).trans moves₇).size_le
  obtain ⟨cell, stored⟩ := SymbolTable.exists_cell limited
  refine .bind (.of_ask (SymbolTable.kind_of_cell stored)) fun kind t₆ _ _ here => ?_
  obtain ⟨rfl, rfl⟩ := here
  refine .bind (temporary_does _) fun bound t₆ moves₈ _ made₃ => ?_
  have counts := Nat.lt_of_lt_of_le variable_.1.1 (((((((moves₁.trans moves₂).trans moves₃).trans
    moves₄).trans moves₅).trans moves₆).trans moves₇).trans moves₈).size_le
  refine .bind (resultKind_does made₃.1 counts) fun kind' t₇ _ _ same' => ?_
  subst same'
  refine .bind (temporary_does kind') fun distance t₈ moves₉ _ made₄ => ?_
  have tail := (moves₇.trans moves₈).trans moves₉
  have toLimit := (moves₅.trans moves₆).trans tail
  have toStart := (moves₃.trans moves₄).trans toLimit
  have toCounter := (moves₁.trans moves₂).trans toStart
  have targets : ∀ cell ∈ [counter, bound, distance], t₈.symbols.Assignable cell := by
    intro cell member
    simp only [List.mem_cons, List.not_mem_nil, or_false] at member
    obtain rfl | rfl | rfl := member
    · exact variable_.target toCounter
    · exact made₃.2.2.later moves₉.extends.lookup
    · exact made₄.2.2
  refine (countingLoop_does inner ?_ targets).mono fun _ u _ last body => ?_
  · intro cell member
    simp only [List.mem_cons, List.not_mem_nil, or_false] at member
    obtain rfl | rfl | rfl | rfl | rfl | rfl := member
    · exact Nat.lt_of_lt_of_le variable_.1.1 toCounter.size_le
    · exact Nat.lt_of_lt_of_le read.1 toStart.size_le
    · exact Nat.lt_of_lt_of_le read'.1 toLimit.size_le
    · exact Nat.lt_of_lt_of_le made₂.1 (moves₈.trans moves₉).size_le
    · exact Nat.lt_of_lt_of_le made₃.1 moves₉.size_le
    · exact made₄.1
  intro clean
  obtain ⟨e, starts, usable⟩ := read.later valid₂ (toStart.trans last) clean
  obtain ⟨e', upTo, usable'⟩ := read'.later valid₃ (toLimit.trans last) clean
  obtain ⟨stmt, d, spelled, closed, usable''⟩ := body clean
  have proper : t₂.look.kind ≠ .endOfInput := by
    rw [direction]
    split <;> nofun
  rw [ahead_eq_cons proper] at starts
  rw [ahead_eq_cons (s := t₃) (by simp [isDo])] at upTo
  rw [made₄.2.1, made₃.2.1, made₂.2, made₁.2] at spelled
  refine ⟨.forLoop t.look.text e e' down stmt, d, ?_, closed, fun name member => ?_⟩
  · rw [ahead_eq_cons more, ← same, variable_.1.2, ahead_eq_cons (s := t₁) (by simp [assigns])]
    exact .forLoop is variable_.2.1 assigns starts direction upTo isDo spelled
  · simp only [Stmt.names, List.mem_cons, List.mem_append] at member
    obtain rfl | member | member | member := member
    · exact variable_.later (toCounter.trans last)
    · exact usable name member
    · exact usable' name member
    · exact usable'' name member

theorem dispatch_does (s : Session) : Does False (dispatch statement) s (ReadsStmt .one s) := by
  have nothing (is : s.look.kind = .kwEnd ∨ s.look.kind = .kwUntil) : ReadsStmt .one s () s := by
    intro _
    refine ⟨.empty, false, ?_, nofun, nofun⟩
    rw [ahead_eq_cons (by rcases is with is | is <;> simp [is])]
    exact .empty is
  refine .lookKind_bind ?_
  split
  · exact assignment_does s
  · exact nestedBlock_does inner s
  · exact ifStatement_does inner ‹_›
  · exact whileStatement_does inner ‹_›
  · exact repeatStatement_does inner ‹_›
  · exact forStatement_does inner ‹_›
  · exact writeln_does ‹_›
  · exact readln_does ‹_›
  · exact .of_pure (nothing (.inl ‹_›))
  · exact .of_pure (nothing (.inr ‹_›))
  · exact .of_failExpecting _

end

/-! ## Going on after an error -/

theorem skipTokens_moves (fuel skipped : Nat) (s : Session) :
    Moves False s (skipTokens fuel skipped s).2 := by
  induction fuel generalizing skipped s with
  | zero => exact .refl
  | succ fuel ih =>
    unfold skipTokens
    split
    · exact .refl
    · rename_i more
      have more : s.look.kind ≠ .endOfInput := fun ended => more (.inl ended)
      exact .head (.advance s more) (ih _ _)

theorem resync_does : Does False resync s fun _ _ => True := by
  intro _
  unfold Leads resync
  split
  · rename_i a t ran
    split at ran
    · cases ran
      exact ⟨.refl, trivial⟩
    · dsimp only at ran
      have moves := skipTokens_moves (s.unread.length + 2) 0 s
      split at ran <;> (cases ran; exact ⟨.tail moves (.observe _ _ _ _ _), trivial⟩)
  · rename_i abort t ran
    split at ran
    · cases ran
    · dsimp only at ran
      split at ran <;> cases ran

/-- A statement that is read after an error says nothing, since the error was counted. -/
theorem recovering_does {body again : Rule Unit} (first : Does False body s (ReadsStmt .one s))
    (second : ∀ t, Does False again t (ReadsStmt .one t)) :
    Does False (recovering body again) s (ReadsStmt .one s) := by
  intro valid
  have lead := first valid
  cases ran : body s with
  | ok _ t => exact Leads.of_ok (by simp only [recovering, ran]) (lead.ok ran)
  | error abort t =>
    obtain ⟨moves, reported⟩ := lead.error ran
    cases abort with
    | crashed error => exact reported.elim
    | outOfFuel =>
      exact Leads.of_error (e := Abort.outOfFuel) (by simp only [recovering, ran]) ⟨moves, trivial⟩
    | gaveUp =>
      have errors : t.syntaxErrors ≠ 0 := reported
      have valid' := moves.valid valid
      have synced := resync_does valid'
      cases resynced : resync t with
      | error abort u =>
        obtain ⟨moves', reported'⟩ := synced.error resynced
        exact Leads.of_error (by simp only [recovering, ran, resynced])
          ⟨moves.trans moves', reported'⟩
      | ok goesOn u =>
        obtain ⟨moves', _⟩ := synced.ok resynced
        have counted := moves'.syntaxErrors_le
        cases goesOn with
        | false =>
          have errors' : u.syntaxErrors ≠ 0 := by omega
          exact Leads.of_error (e := Abort.gaveUp) (by simp only [recovering, ran, resynced])
            ⟨moves.trans moves', errors'⟩
        | true =>
          have lead' := second u (moves'.valid valid')
          cases tried : again u with
          | ok _ w =>
            obtain ⟨moves'', _⟩ := lead'.ok tried
            have counted' := moves''.syntaxErrors_le
            refine Leads.of_ok (a := ()) (t := w) (by simp only [recovering, ran, resynced, tried]) ?_
            exact ⟨(moves.trans moves').trans moves'', fun clean => by have := clean.1; omega⟩
          | error abort w =>
            obtain ⟨moves'', reported'⟩ := lead'.error tried
            exact Leads.of_error (by simp only [recovering, ran, resynced, tried])
              ⟨(moves.trans moves').trans moves'', reported'⟩

theorem attemptWithin_does (fuel : Nat) :
    ∀ s, Does False (attemptWithin fuel) s (ReadsStmt .one s) := by
  induction fuel with
  | zero => exact fun _ => .of_outOfFuel
  | succ fuel ih =>
    intro s
    have turn : attemptWithin (fuel + 1) s =
        recovering (dispatch (traced .statement (attemptWithin fuel))) (attemptWithin fuel) s := by
      simp only [attemptWithin]
    refine .of_eq turn (recovering_does (dispatch_does (fun s => ?_) s) ih)
    exact Does.traced (P := fun _ => True) (fun _ _ _ _ _ _ _ read => read)
      (fun _ _ _ _ => trivial) (fun s _ => ih s) trivial

theorem statement_does (s : Session) : Does False statement s (ReadsStmt .one s) := by
  refine .of_eq (statement_eq s) ?_
  exact Does.traced (P := fun _ => True) (fun _ _ _ _ _ _ _ read => read)
    (fun _ _ _ _ => trivial) (fun s _ => attemptWithin_does _ s) trivial

end MiniPascal.Rule
