import MiniPascal.Proofs.Compiler.CompilingExpressions
import MiniPascal.Proofs.Compiler.ReadingStatements

/-! # Statements are compiled

A statement that the grammar derives is read, and its code is written, if each `ELSE` belongs to the
nearest `IF`. Jumps over a statement get their target when its end is known. That target is the index of
the next quad, which exists only while there is room for another one; the code is therefore described
for the case that there is. The quad that ends a program is written after all of its statements, so that
nothing is lost by this.
-/

namespace MiniPascal

open Syntax

namespace Session

variable {declaring : Prop} {s t : Session} {q : Quad} {before after : List Quad}

/-- There is room for another quad. -/
def Room (s : Session) : Prop := s.quads.size < s.quads.capacity

theorem Moves.room (moves : Moves declaring s t) (room : t.Room) : s.Room := by
  have ⟨grown, same⟩ := moves.quads_le
  unfold Room at *
  omega

theorem Room.target (room : s.Room) : s.quads.target = s.code.length :=
  QuadTable.target_of_room room

theorem jumpAt_of_code (written : s.code = before ++ q :: after) (jump : q.op.isJump = true) :
    s.JumpAt before.length :=
  ⟨q, by rw [written, List.getElem?_append_right (Nat.le_refl _)]; simp, jump⟩

end Session

namespace Rule

open Session

variable {scope : Scope} {s : Session} {e : Expr} {r : Relation} {stmt other : Stmt}
variable {token : Token} {input middle rest : List Token}

theorem Patches.code {t : Session} {before after : List Quad} {q : Quad} {c : Int}
    (patches : Patches s before.length c t) (written : s.code = before ++ q :: after) :
    t.code = before ++ { q with c } :: after := by
  rw [Session.code, patches.quads, QuadTable.code_retarget, show s.quads.code = _ from written,
    List.modify_eq_take_drop]
  simp

/-- The code of a statement was written, and `rest` is left to read. -/
def Lays (stmt : Stmt) (s : Session) (rest : List Token) (_ : Unit) (t : Session) : Prop :=
  t.ahead = rest ∧ (t.Room → ∃ code, t.code = s.code ++ code ∧
    stmt.Laid t.symbols s.temporaries t.temporaries s.code.length code)

/-- The last jump of a statement got its target. -/
theorem Patches.lays {t u : Session} {i : Nat} {c : Int} {code : List Quad} {start n : Nat}
    (patches : Patches t i c u) (laid : stmt.Laid t.symbols n t.temporaries start code)
    {before : List Quad} (written : u.code = before ++ code) :
    ∃ code, u.code = before ++ code ∧ stmt.Laid u.symbols n u.temporaries start code := by
  refine ⟨code, written, ?_⟩
  rw [patches.symbols, patches.temporaries]
  exact laid

theorem Lays.blind (s : Session) (u : Unit) (t : Session) (journal : Journal) (depth : Nat)
    (journal' : Journal) (depth' : Nat) (lays : Lays stmt { s with journal, depth } rest u t) :
    Lays stmt s rest u { t with journal := journal', depth := depth' } := lays

theorem ends_of_kind {kind : TokenKind} (is : token.kind = kind)
    (other : factorOperation? kind = none ∧ termOperation? kind = none) : Ends (token :: rest) := by
  unfold Ends
  rwa [firstKind_cons, is]

/-! ## Simple statements -/

theorem assignment_succeeds {assign : Token} (tokens : s.ahead = token :: assign :: input)
    (is : token.kind = .identifier) (assigns : assign.kind = .assign)
    (source : e.Spelled .operand input rest) (ends : Ends rest)
    (allowed : ∀ name ∈ token.text :: e.names, scope.Allows name) :
    Succeeds scope assignment s (Lays (.assignment token.text e) s rest) := by
  refine .traced (R := fun s => Lays _ s rest) Lays.blind (fun s tokens => ?_) tokens
  refine .of_word tokens is fun word => ?_
  refine .bind (variableUse_succeeds tokens is (allowed _ List.mem_cons_self)) fun i t _ takes => ?_
  refine .bind (expect_succeeds takes.ahead assigns) fun _ u moves same => ?_
  obtain ⟨rfl, ahead⟩ := same
  refine .bind (operand_succeeds source ends
    (fun name used => allowed name (List.mem_cons_of_mem _ used)) ahead) fun j v moves' leaves => ?_
  obtain ⟨ahead', code, written, laid⟩ := leaves
  have found := (moves.trans moves').extends.lookup _ _ takes.found
  refine .of_orderly fun quote items orderly => ?_
  have wf := orderly.valid.symbols
  refine .bind (emit_succeeds (wellFormed_mov (laid.lt_size wf) (wf.lookup_lt found))
    fun _ => .word word found)
    fun _ w _ emits => .of_pure ⟨emits.ahead.trans ahead', fun _ => ⟨code ++ [⟨.mov, j, 0, i⟩], ?_, ?_⟩⟩
  · rw [emits.code, written, ← List.append_assoc]
    exact congrArg (· ++ code ++ _) takes.code
  · rw [emits.symbols, emits.temporaries]
    exact .assignment found (takes.temporaries ▸ laid)

theorem writeln_succeeds {opening closing : Token} (tokens : s.ahead = token :: opening :: input)
    (opens : opening.kind = .leftParen) (value : e.Spelled .operand input (closing :: rest))
    (closes : closing.kind = .rightParen) (allowed : ∀ name ∈ e.names, scope.Allows name) :
    Succeeds scope writeln s (Lays (.writeln e) s rest) := by
  refine .traced (R := fun s => Lays _ s rest) Lays.blind (fun s tokens => ?_) tokens
  refine .bind (advance_succeeds tokens) fun _ t _ same => ?_
  obtain ⟨rfl, ahead⟩ := same
  refine .bind (expect_succeeds ahead opens) fun _ t _ same => ?_
  obtain ⟨rfl, ahead⟩ := same
  refine .bind (operand_succeeds value (ends_of_kind closes ⟨rfl, rfl⟩) allowed ahead)
    fun i t _ leaves => ?_
  obtain ⟨ahead, code, written, laid⟩ := leaves
  refine .bind (expect_succeeds ahead closes) fun _ u moves same => ?_
  obtain ⟨rfl, ahead⟩ := same
  have kept := laid.extend moves.extends
  refine .of_orderly fun quote items orderly => ?_
  refine .bind (emit_succeeds (wellFormed_print (kept.lt_size orderly.valid.symbols)) nofun)
    fun _ v _ emits => .of_pure ⟨emits.ahead.trans ahead, fun _ => ⟨code ++ [⟨.print, 0, 0, i⟩], ?_, ?_⟩⟩
  · rw [emits.code, ← List.append_assoc]
    exact congrArg (· ++ _) written
  · rw [emits.symbols, emits.temporaries]
    exact .writeln kept

theorem readln_succeeds {opening target closing : Token}
    (tokens : s.ahead = token :: opening :: target :: closing :: rest)
    (opens : opening.kind = .leftParen) (is : target.kind = .identifier)
    (closes : closing.kind = .rightParen) (allowed : scope.Allows target.text) :
    Succeeds scope readln s (Lays (.readln target.text) s rest) := by
  refine .traced (R := fun s => Lays _ s rest) Lays.blind (fun s tokens => ?_) tokens
  refine .bind (advance_succeeds tokens) fun _ t _ same => ?_
  obtain ⟨rfl, ahead⟩ := same
  refine .bind (expect_succeeds ahead opens) fun _ t _ same => ?_
  obtain ⟨rfl, ahead⟩ := same
  refine .of_word ahead is fun word => ?_
  refine .bind (variableUse_succeeds ahead is allowed) fun i t _ takes => ?_
  refine .bind (expect_succeeds takes.ahead closes) fun _ u moves same => ?_
  obtain ⟨rfl, ahead⟩ := same
  have found := moves.extends.lookup _ _ takes.found
  refine .of_orderly fun quote items orderly => ?_
  refine .bind (emit_succeeds (wellFormed_read (orderly.valid.symbols.lookup_lt found))
    fun _ => .word word found)
    fun _ v _ emits => .of_pure ⟨emits.ahead.trans ahead, fun _ => ⟨[⟨.read, 0, 0, i⟩], ?_, ?_⟩⟩
  · rw [emits.code]
    exact congrArg (· ++ _) takes.code
  · have same : v.temporaries = s.temporaries := emits.temporaries.trans takes.temporaries
    rw [emits.symbols, same]
    exact .readln found

/-! ## Statements with statements in them -/

/-- A statement ends where nothing that follows can continue it. -/
def Closes (dangling : Bool) (rest : List Token) : Prop :=
  Ends rest ∧ (dangling = true → firstKind rest ≠ .kwElse)

theorem closes_of_kind {kind : TokenKind} {dangling : Bool} (is : token.kind = kind)
    (other : factorOperation? kind = none ∧ termOperation? kind = none)
    (open' : dangling = true → kind ≠ .kwElse) : Closes dangling (token :: rest) := by
  refine ⟨ends_of_kind is other, fun dangles => ?_⟩
  rw [firstKind_cons, is]
  exact open' dangles

section

variable {statement : Rule Unit}

/-- A test and a body after it were written; only the target of the test's jump is missing. -/
structure Guards (r : Relation) (stmt : Stmt) (s : Session) (i : Nat) (t : Session) : Prop where
  jump : t.JumpAt i
  laid : t.Room → ∃ code code' cell middle, i = (s.code ++ code).length ∧
    t.code = s.code ++ code ++ ⟨r.comparison.falseJump, cell, 0, unknownTarget⟩ :: code' ∧
    r.difference.Laid t.symbols s.temporaries middle code cell ∧
    stmt.Laid t.symbols middle t.temporaries (s.code.length + code.length + 1) code'

theorem Guards.of_advance {i : Nat} {t : Session} (guards : Guards r stmt s.advance i t) :
    Guards r stmt s i t :=
  ⟨guards.jump, guards.laid⟩

/-- A relation, a word and a statement. -/
theorem guarded_succeeds {word : Token} {kind : TokenKind} (tokens : s.ahead = input)
    (test : r.Spelled input (word :: middle)) (is : word.kind = kind)
    (plain : factorOperation? kind = none ∧ termOperation? kind = none)
    (allowed : ∀ name ∈ r.names, scope.Allows name)
    (body : ∀ u : Session, u.ahead = middle → Succeeds scope statement u (Lays stmt u rest))
    {next : Nat → Rule Unit} {result : Unit → Session → Prop}
    (then' : ∀ i t, Moves False s t → t.ahead = rest → Guards r stmt s i t →
      Succeeds scope (next i) t result) :
    Succeeds scope (do
      let test ← relExpression
      expect kind
      statement
      next test) s result := by
  refine .bind (relExpression_succeeds test (ends_of_kind is plain) allowed tokens)
    fun i t first tests => ?_
  obtain ⟨ahead, code, cell, rfl, written, laid⟩ := tests
  refine .bind (expect_succeeds ahead is) fun _ u second same => ?_
  obtain ⟨rfl, ahead⟩ := same
  refine .bind (body _ ahead) fun _ v third lays => ?_
  have later := second.trans third
  refine then' _ v (first.trans later) lays.1 ⟨later.jumpAt (jumpAt_of_code written ?_), ?_⟩
  · exact r.comparison.isJump_falseJump
  · intro room
    obtain ⟨code', written', laid'⟩ := lays.2 room
    refine ⟨code, code', cell, t.temporaries, rfl, ?_, laid.extend later.extends, ?_⟩
    · rw [written', show t.advance.code = t.code from rfl, written, List.append_assoc]
      rfl
    · have length : t.advance.code.length = s.code.length + code.length + 1 := by
        rw [show t.advance.code = t.code from rfl, written]
        simp [Nat.add_assoc]
      rw [length] at laid'
      exact laid'

theorem ifThen_succeeds {thens : Token} (tokens : s.ahead = token :: input)
    (test : r.Spelled input (thens :: middle)) (isThen : thens.kind = .kwThen)
    (allowed : ∀ name ∈ r.names, scope.Allows name)
    (body : ∀ u : Session, u.ahead = middle → Succeeds scope statement u (Lays stmt u rest))
    (last : firstKind rest ≠ .kwElse) :
    Succeeds scope (ifStatement statement) s (Lays (.ifThen r stmt) s rest) := by
  refine .traced (R := fun s => Lays _ s rest) Lays.blind (fun s tokens => ?_) tokens
  refine .bind (advance_succeeds tokens) fun _ t _ same => ?_
  obtain ⟨rfl, ahead⟩ := same
  refine guarded_succeeds ahead test isThen ⟨rfl, rfl⟩ allowed body fun i t _ ahead guards => ?_
  refine .lookKind_bind ?_
  rw [← firstKind_ahead, ahead, if_neg last]
  refine .nextQuad_bind ((patch_succeeds guards.jump).mono fun _ u moves patches => ?_)
  refine ⟨patches.ahead.trans ahead, fun room => ?_⟩
  have enough := moves.room room
  obtain ⟨code, code', cell, n, rfl, written, test, body⟩ := guards.of_advance.laid enough
  have length : t.code.length = s.code.length + code.length + 1 + code'.length := by
    simp [written]
    omega
  rw [enough.target, length] at patches
  refine patches.lays (.ifThen test body) ?_
  rw [patches.code written, List.append_assoc]

theorem ifElse_succeeds {thens elses : Token} {after : List Token}
    (tokens : s.ahead = token :: input) (test : r.Spelled input (thens :: middle))
    (isThen : thens.kind = .kwThen) (isElse : elses.kind = .kwElse)
    (allowed : ∀ name ∈ r.names, scope.Allows name)
    (body : ∀ u : Session, u.ahead = middle → Succeeds scope statement u (Lays stmt u (elses :: after)))
    (otherwise : ∀ u : Session, u.ahead = after → Succeeds scope statement u (Lays other u rest)) :
    Succeeds scope (ifStatement statement) s (Lays (.ifElse r stmt other) s rest) := by
  refine .traced (R := fun s => Lays _ s rest) Lays.blind (fun s tokens => ?_) tokens
  refine .bind (advance_succeeds tokens) fun _ t _ same => ?_
  obtain ⟨rfl, ahead⟩ := same
  refine guarded_succeeds ahead test isThen ⟨rfl, rfl⟩ allowed body fun i t _ ahead guards => ?_
  refine .lookKind_bind ?_
  rw [← firstKind_ahead, ahead, firstKind_cons, if_pos isElse]
  refine .bind (advance_succeeds ahead) fun _ u first same => ?_
  obtain ⟨rfl, ahead⟩ := same
  refine .bind (emit_succeeds (wellFormed_jmp _) nofun) fun skip u second emits => .nextQuad_bind ?_
  refine .bind (patch_succeeds ((first.trans second).jumpAt guards.jump)) fun _ v third patches => ?_
  refine .bind (otherwise v (patches.ahead.trans (emits.ahead.trans ahead))) fun _ w fourth lays =>
    .nextQuad_bind ?_
  have skips := (third.trans fourth).jumpAt (jumpAt_of_code emits.code rfl)
  rw [emits.index]
  refine (patch_succeeds skips).mono fun _ x fifth patches' => ?_
  refine ⟨patches'.ahead.trans lays.1, fun room => ?_⟩
  have enough := fifth.room room
  have enough' := (third.trans fourth).room enough
  obtain ⟨code, code', cell, n, rfl, written, test, body⟩ :=
    guards.of_advance.laid ((first.trans second).room enough')
  obtain ⟨code'', written', laid⟩ := lays.2 enough
  have kept : v.temporaries = t.temporaries := patches.temporaries.trans emits.temporaries
  -- the code before the `ELSE` branch, with its two jumps still open
  have open' : u.code = s.code ++ code ++
      ⟨r.comparison.falseJump, cell, 0, unknownTarget⟩ :: (code' ++ [⟨.jmp, 0, 0, unknownTarget⟩]) := by
    rw [emits.code, show t.advance.code = _ from written]
    simp
  have length : u.code.length = s.code.length + code.length + 1 + code'.length + 1 := by
    simp [open']
    omega
  rw [enough'.target, length] at patches
  have between := patches.code open'
  have length' : v.code.length = s.code.length + code.length + 1 + code'.length + 1 := by
    simp [between]
    omega
  have length'' : w.code.length =
      s.code.length + code.length + 1 + code'.length + 1 + code''.length := by
    rw [written', List.length_append, length']
  have place : t.advance.code.length = (s.code ++ code ++ ⟨r.comparison.falseJump, cell, 0,
      (s.code.length + code.length + 1 + code'.length + 1 : Nat)⟩ :: code').length := by
    rw [show t.advance.code = _ from written]
    simp
  rw [place, enough.target, length''] at patches'
  have open'' : w.code = (s.code ++ code ++ ⟨r.comparison.falseJump, cell, 0,
      (s.code.length + code.length + 1 + code'.length + 1 : Nat)⟩ :: code') ++
        ⟨.jmp, 0, 0, unknownTarget⟩ :: code'' := by
    rw [written', between]
    simp
  rw [length', kept] at laid
  have later : Moves False t w := (first.trans second).trans (third.trans fourth)
  refine patches'.lays (.ifElse (test.extend later.extends) (body.extend later.extends) laid) ?_
  rw [patches'.code open'']
  simp

theorem whileLoop_succeeds {does : Token} (tokens : s.ahead = token :: input)
    (test : r.Spelled input (does :: middle)) (isDo : does.kind = .kwDo)
    (allowed : ∀ name ∈ r.names, scope.Allows name)
    (body : ∀ u : Session, u.ahead = middle → Succeeds scope statement u (Lays stmt u rest)) :
    Succeeds scope (whileStatement statement) s (Lays (.whileLoop r stmt) s rest) := by
  refine .traced (R := fun s => Lays _ s rest) Lays.blind (fun s tokens => ?_) tokens
  refine .bind (advance_succeeds tokens) fun _ t start same => .nextQuad_bind ?_
  obtain ⟨rfl, ahead⟩ := same
  refine guarded_succeeds ahead test isDo ⟨rfl, rfl⟩ allowed body fun i t first ahead guards => ?_
  refine .bind (emit_succeeds (wellFormed_jmp _) nofun) fun _ u second emits => .nextQuad_bind ?_
  refine (patch_succeeds (second.jumpAt guards.jump)).mono fun _ v third patches => ?_
  refine ⟨patches.ahead.trans (emits.ahead.trans ahead), fun room => ?_⟩
  have enough := third.room room
  have top : s.advance.quads.target = s.code.length := ((first.trans second).room enough).target
  obtain ⟨code, code', cell, n, rfl, written, test, body⟩ :=
    guards.of_advance.laid (second.room enough)
  have open' : u.code = s.code ++ code ++
      ⟨r.comparison.falseJump, cell, 0, unknownTarget⟩ :: (code' ++ [⟨.jmp, 0, 0, s.code.length⟩]) := by
    rw [emits.code, written, top]
    simp
  have length : u.code.length = s.code.length + code.length + 1 + code'.length + 1 := by
    simp [open']
    omega
  rw [enough.target, length] at patches
  rw [← emits.symbols] at test body
  rw [← emits.temporaries] at body
  refine patches.lays (.whileLoop test body) ?_
  rw [patches.code open', List.append_assoc]

theorem repeatLoop_succeeds {untils : Token} (tokens : s.ahead = token :: input)
    (isUntil : untils.kind = .kwUntil)
    (body : ∀ u : Session, u.ahead = input →
      Succeeds scope (statements statement) u (Lays stmt u (untils :: middle)))
    (test : r.Spelled middle rest) (ends : Ends rest)
    (allowed : ∀ name ∈ r.names, scope.Allows name) :
    Succeeds scope (repeatStatement statement) s (Lays (.repeatLoop stmt r) s rest) := by
  refine .traced (R := fun s => Lays _ s rest) Lays.blind (fun s tokens => ?_) tokens
  refine .bind (advance_succeeds tokens) fun _ t start same => .nextQuad_bind ?_
  obtain ⟨rfl, ahead⟩ := same
  refine .bind (body _ ahead) fun _ t first lays => ?_
  refine .bind (expect_succeeds lays.1 isUntil) fun _ u second same => ?_
  obtain ⟨rfl, ahead⟩ := same
  refine .bind (relExpression_succeeds test ends allowed ahead) fun i u third tests => ?_
  obtain ⟨ahead, code', cell, rfl, written', laid'⟩ := tests
  refine (patch_succeeds (jumpAt_of_code written' r.comparison.isJump_falseJump)).mono
    fun _ v fourth patches => ⟨patches.ahead.trans ahead, fun room => ?_⟩
  have enough := fourth.room room
  have later : Moves False t u := second.trans third
  have top : s.advance.quads.target = s.code.length := ((first.trans later).room enough).target
  obtain ⟨code, written, laid⟩ := lays.2 (later.room enough)
  rw [top] at patches
  refine patches.lays (.repeatLoop (laid.extend later.extends) laid') ?_
  rw [patches.code written', show t.advance.code = s.code ++ code from written]
  simp

/-- The quads of a loop that counts. -/
def Counts (down : Bool) (counter start limit step bound distance : Nat) (stmt : Stmt) (s : Session)
    (rest : List Token) (_ : Unit) (t : Session) : Prop :=
  t.ahead = rest ∧ (t.Room → ∃ code, stmt.Laid t.symbols s.temporaries t.temporaries
    (s.code.length + 4) code ∧ t.code = s.code ++
      ([⟨.mov, start, 0, counter⟩, ⟨.mov, limit, 0, bound⟩,
        ⟨.sub, (span down counter bound).1, (span down counter bound).2, distance⟩,
        ⟨.jn, distance, 0, (s.code.length + 4 + code.length + 3 : Nat)⟩] ++
      (code ++ [⟨.add, counter, step, counter⟩,
        ⟨.sub, (span down counter bound).1, (span down counter bound).2, distance⟩,
        ⟨.jnn, distance, 0, (s.code.length + 4 : Nat)⟩])))

theorem span_eq (down : Bool) (counter bound : Nat) :
    (if down then counter else bound) = (span down counter bound).1 ∧
      (if down then bound else counter) = (span down counter bound).2 := by
  cases down <;> exact ⟨rfl, rfl⟩

theorem countingLoop_succeeds {down : Bool} {counter start limit step bound distance : Nat}
    (cells : ∀ i ∈ [counter, start, limit, step, bound, distance], i < s.symbols.size)
    (targets : ∀ i ∈ [counter, bound, distance], s.symbols.Assignable i) (tokens : s.ahead = input)
    (body : ∀ u : Session, u.ahead = input → Succeeds scope statement u (Lays stmt u rest)) :
    Succeeds scope (countingLoop statement down counter start limit step bound distance) s
      (Counts down counter start limit step bound distance stmt s rest) := by
  have subtracts : ∀ {n}, s.symbols.size ≤ n → Quad.WellFormed n
      ⟨.sub, (span down counter bound).1, (span down counter bound).2, distance⟩ := by
    intro n grown
    have within : ∀ i ∈ [counter, start, limit, step, bound, distance], i < n :=
      fun i member => Nat.lt_of_lt_of_le (cells i member) grown
    refine wellFormed_arithmetic (by simp) ?_ ?_ (within _ (by simp))
    · unfold span
      split <;> exact within _ (by simp)
    · unfold span
      split <;> exact within _ (by simp)
  unfold countingLoop
  rw [(span_eq ..).1, (span_eq ..).2]
  refine .bind (emit_succeeds (wellFormed_mov (cells _ (by simp)) (cells _ (by simp)))
    fun _ => targets _ (by simp)) fun _ t₁ moves₁ emits₁ => ?_
  rw [← emits₁.symbols] at cells targets subtracts
  refine .bind (emit_succeeds (wellFormed_mov (cells _ (by simp)) (cells _ (by simp)))
    fun _ => targets _ (by simp)) fun _ t₂ moves₂ emits₂ => ?_
  rw [← emits₂.symbols] at cells targets subtracts
  refine .bind (emit_succeeds (subtracts (Nat.le_refl _)) fun _ => targets _ (by simp))
    fun _ t₃ moves₃ emits₃ => ?_
  rw [← emits₃.symbols] at cells targets subtracts
  refine .bind (emit_succeeds (wellFormed_conditional rfl _ (cells _ (by simp))) nofun)
    fun i t₄ moves₄ emits₄ => .nextQuad_bind ?_
  rw [← emits₄.symbols] at cells targets subtracts
  have ahead : t₄.ahead = input := by
    rw [emits₄.ahead, emits₃.ahead, emits₂.ahead, emits₁.ahead, tokens]
  refine .bind (body _ ahead) fun _ t₅ moves₅ lays => ?_
  have within : ∀ i ∈ [counter, start, limit, step, bound, distance], i < t₅.symbols.size :=
    fun i member => Nat.lt_of_lt_of_le (cells i member) moves₅.size_le
  have addition : Quad.WellFormed t₅.symbols.size ⟨.add, counter, step, counter⟩ :=
    wellFormed_arithmetic (by simp) (within _ (by simp)) (within _ (by simp)) (within _ (by simp))
  have storing {t : Session} (moves : Moves False t₄ t) :
      ∀ i ∈ [counter, bound, distance], t.symbols.Assignable i :=
    fun i member => (targets i member).later moves.extends.lookup
  refine .bind (emit_succeeds addition fun _ => storing moves₅ _ (by simp)) fun _ t₆ moves₆ emits₆ => ?_
  refine .bind (emit_succeeds (subtracts (moves₅.trans moves₆).size_le) fun _ =>
    storing (moves₅.trans moves₆) _ (by simp)) fun _ t₇ moves₇ emits₇ => ?_
  have last : distance < t₇.symbols.size :=
    Nat.lt_of_lt_of_le (within _ (by simp)) (moves₆.trans moves₇).size_le
  refine .bind (emit_succeeds (wellFormed_conditional rfl _ last) nofun) fun _ t₈ moves₈ emits₈ =>
    .nextQuad_bind ?_
  have later := (moves₆.trans moves₇).trans moves₈
  have guard : t₄.JumpAt i := emits₄.index ▸ jumpAt_of_code emits₄.code rfl
  refine (patch_succeeds ((moves₅.trans later).jumpAt guard)).mono fun _ t₉ moves₉ patches => ?_
  refine ⟨?_, fun room => ?_⟩
  · rw [patches.ahead, emits₈.ahead, emits₇.ahead, emits₆.ahead, lays.1]
  have enough := moves₉.room room
  obtain ⟨code, written, laid⟩ := lays.2 (later.room enough)
  have head := (((moves₅.trans later).room enough)).target
  have open' : t₃.code = s.code ++ [⟨.mov, start, 0, counter⟩, ⟨.mov, limit, 0, bound⟩,
      ⟨.sub, (span down counter bound).1, (span down counter bound).2, distance⟩] := by
    rw [emits₃.code, emits₂.code, emits₁.code]
    simp
  have length : t₄.code.length = s.code.length + 4 := by
    rw [emits₄.code, open']
    simp
  have whole : t₈.code = t₃.code ++ ⟨.jn, distance, 0, unknownTarget⟩ ::
      (code ++ [⟨.add, counter, step, counter⟩,
        ⟨.sub, (span down counter bound).1, (span down counter bound).2, distance⟩,
        ⟨.jnn, distance, 0, (s.code.length + 4 : Nat)⟩]) := by
    rw [emits₈.code, emits₇.code, emits₆.code, written, emits₄.code, head, length]
    simp
  have length' : t₈.code.length = s.code.length + 4 + code.length + 3 := by
    rw [whole, open']
    simp
    omega
  have kept : t₄.temporaries = s.temporaries := by
    rw [emits₄.temporaries, emits₃.temporaries, emits₂.temporaries, emits₁.temporaries]
  rw [emits₄.index, enough.target, length'] at patches
  refine ⟨code, ?_, ?_⟩
  · rw [patches.symbols, patches.temporaries, emits₈.symbols, emits₈.temporaries, emits₇.symbols,
      emits₇.temporaries, emits₆.symbols, emits₆.temporaries, ← kept, ← length]
    exact laid
  · rw [patches.code whole, open']
    simp

theorem countsDown_succeeds {down : Bool} (tokens : s.ahead = token :: rest)
    (direction : token.kind = if down then .kwDownto else .kwTo) :
    Succeeds scope countsDown s fun found t => found = down ∧ t = s.advance ∧ t.ahead = rest := by
  obtain ⟨here, _⟩ := look_of_ahead tokens
  refine .lookKind_bind ?_
  rw [here, direction]
  cases down with
  | false => exact .bind (advance_succeeds tokens) fun _ _ _ same => .of_pure ⟨rfl, same⟩
  | true => exact .bind (advance_succeeds tokens) fun _ _ _ same => .of_pure ⟨rfl, same⟩

theorem counterStep_succeeds {down : Bool} {one : Nat}
    (found : s.symbols.lookup? (.ofInt 1) = some one) :
    Succeeds scope (counterStep down one) s fun i t =>
      OnlySymbols s t ∧ t.symbols.lookup? (.ofInt (if down then -1 else 1)) = some i := by
  cases down with
  | false => exact .of_pure ⟨⟨rfl, rfl, rfl⟩, found⟩
  | true => exact constant_succeeds (.inr rfl)

/-- The cells that a loop needs beside its counter and its limit. -/
structure LoopCells (down : Bool) (counter limit : Nat) (s : Session) (step bound distance : Nat)
    (t : Session) : Prop where
  code : t.code = s.code
  temporaries : t.temporaries = s.temporaries + 2
  ahead : t.ahead = s.ahead
  steps : t.symbols.lookup? (.ofInt (if down then -1 else 1)) = some step
  copied : ∃ kind, t.symbols.kindAt limit = some kind ∧
    t.symbols.Temporary (s.temporaries + 1) kind bound
  made : t.symbols.Result (s.temporaries + 2) bound counter distance

theorem loopCells_succeeds {down : Bool} {counter limit : Nat} (first : counter < s.symbols.size)
    (second : limit < s.symbols.size) {next : Nat → Nat → Nat → Rule Unit}
    {result : Unit → Session → Prop}
    (then' : ∀ step bound distance t, Moves False s t →
      LoopCells down counter limit s step bound distance t →
      Succeeds scope (next step bound distance) t result) :
    Succeeds scope (do
      let step ← counterStep down (← constant 1)
      let bound ← temporary (← ask (·.kind limit))
      let distance ← temporary (← resultKind bound counter)
      next step bound distance) s result := by
  refine .bind (constant_succeeds (.inl rfl)) fun one t₁ moves₁ here₁ => ?_
  refine .bind (counterStep_succeeds here₁.2) fun step t₂ moves₂ here₂ => ?_
  have path := moves₁.trans moves₂
  obtain ⟨stored, here⟩ := SymbolTable.exists_cell (Nat.lt_of_lt_of_le second path.size_le)
  have asked := SymbolTable.kind_of_cell here
  have known : t₂.symbols.kindAt limit = some stored.value.kind := by simp [SymbolTable.kindAt, here]
  refine .bind (.of_ask asked) fun _ t₃ moves₃ same => ?_
  obtain ⟨rfl, rfl⟩ := same
  refine .bind (temporary_succeeds _) fun bound t₄ moves₄ made => ?_
  have bounds := SymbolTable.lt_size_of_cell made.cell.cell
  have path' := path.trans moves₄
  refine .bind (resultKind_succeeds bounds (Nat.lt_of_lt_of_le first path'.size_le))
    fun kind t₅ _ here => ?_
  obtain ⟨rfl, left, right, known₁, known₂, rfl⟩ := here
  refine .bind (temporary_succeeds _) fun distance t₆ moves₆ made' => ?_
  have counted : t₅.temporaries = s.temporaries + 1 := by
    rw [made.temporaries, here₂.1.temporaries, here₁.1.temporaries]
  have counted' : t₃.temporaries = s.temporaries := by
    rw [here₂.1.temporaries, here₁.1.temporaries]
  refine then' step bound distance t₆ (path'.trans moves₆) ⟨?_, ?_, ?_, ?_, ?_, ?_⟩
  · rw [made'.code, made.code, here₂.1.code, here₁.1.code]
  · rw [made'.temporaries, counted]
  · rw [made'.ahead, made.ahead, here₂.1.ahead, here₁.1.ahead]
  · exact (moves₄.trans moves₆).extends.lookup _ _ here₂.2
  · refine ⟨_, (moves₄.trans moves₆).extends.kindAt known, moves₆.extends.temporary ?_⟩
    rw [← counted']
    exact made.cell
  · have cell := made'.cell
    rw [counted] at cell
    exact ⟨_, _, moves₆.extends.kindAt known₁, moves₆.extends.kindAt known₂, cell⟩

theorem forLoop_succeeds {first t assign way does : Token} {after : List Token} {start limit : Expr}
    {down : Bool} (tokens : s.ahead = first :: t :: assign :: input)
    (counter : t.kind = .identifier) (assigns : assign.kind = .assign)
    (starts : start.Spelled .simple input (way :: middle))
    (direction : way.kind = if down then .kwDownto else .kwTo)
    (upTo : limit.Spelled .simple middle (does :: after)) (isDo : does.kind = .kwDo)
    (allowed : ∀ name ∈ t.text :: (start.names ++ limit.names), scope.Allows name)
    (body : ∀ u : Session, u.ahead = after → Succeeds scope statement u (Lays stmt u rest)) :
    Succeeds scope (forStatement statement) s (Lays (.forLoop t.text start limit down stmt) s rest) := by
  refine .traced (R := fun s => Lays _ s rest) Lays.blind (fun s tokens => ?_) tokens
  refine .bind (advance_succeeds tokens) fun _ t₀ _ same => ?_
  obtain ⟨rfl, ahead⟩ := same
  refine .of_word ahead counter fun word => ?_
  refine .bind (variableUse_succeeds ahead counter (allowed _ List.mem_cons_self))
    fun cell t₁ _ takes => ?_
  refine .bind (expect_succeeds takes.ahead assigns) fun _ t₂ moves₂ same => ?_
  obtain ⟨rfl, ahead⟩ := same
  have endsStart : Ends (way :: middle) := by
    refine ends_of_kind direction ?_
    cases down <;> exact ⟨rfl, rfl⟩
  refine .bind (expression_succeeds starts endsStart (fun name used => allowed name
    (List.mem_cons_of_mem _ (List.mem_append_left _ used))) ahead) fun i t₃ moves₃ leaves => ?_
  refine .bind (countsDown_succeeds leaves.1 direction) fun _ t₄ moves₄ same => ?_
  obtain ⟨rfl, rfl, ahead⟩ := same
  refine .bind (expression_succeeds upTo (ends_of_kind isDo ⟨rfl, rfl⟩) (fun name used => allowed name
    (List.mem_cons_of_mem _ (List.mem_append_right _ used))) ahead) fun j t₅ moves₅ leaves' => ?_
  refine .bind (expect_succeeds leaves'.1 isDo) fun _ t₆ moves₆ same => ?_
  obtain ⟨rfl, ahead⟩ := same
  obtain ⟨_, code, written, laid⟩ := leaves
  obtain ⟨_, code', written', laid'⟩ := leaves'
  have toStart : Moves False t₁ t₃ := moves₂.trans moves₃
  have toLimit : Moves False t₃ t₅ := moves₄.trans moves₅
  refine .of_orderly fun quote items orderly => ?_
  have wf := orderly.valid.symbols
  have found := ((toStart.trans toLimit).trans moves₆).extends.lookup _ _ takes.found
  have starts' := laid.extend (toLimit.trans moves₆).extends
  have upTo' := laid'.extend moves₆.extends
  refine loopCells_succeeds (wf.lookup_lt found) (upTo'.lt_size wf)
    fun step bound distance u moves cells => ?_
  have grown := moves.extends
  obtain ⟨kind, known, copied⟩ := cells.copied
  have targets : ∀ i ∈ [cell, bound, distance], u.symbols.Assignable i := by
    intro i member
    simp only [List.mem_cons, List.not_mem_nil, or_false] at member
    obtain rfl | rfl | rfl := member
    · exact .word word (grown.lookup _ _ found)
    · exact .temporary copied.lookup
    · obtain ⟨_, _, _, _, made⟩ := cells.made.kinds
      exact .temporary made.lookup
  refine (countingLoop_succeeds ?_ targets (cells.ahead.trans ahead) body).mono fun _ v last counts =>
    ⟨counts.1, fun room => ?_⟩
  · intro i member
    simp only [List.mem_cons, List.not_mem_nil, or_false] at member
    have wf' := (moves.valid orderly.valid).symbols
    obtain rfl | rfl | rfl | rfl | rfl | rfl := member
    · exact wf'.lookup_lt (grown.lookup _ _ found)
    · exact (starts'.extend grown).lt_size wf'
    · exact (upTo'.extend grown).lt_size wf'
    · exact wf'.lookup_lt cells.steps
    · exact SymbolTable.lt_size_of_cell copied.cell
    · obtain ⟨_, _, _, _, made⟩ := cells.made.kinds
      exact SymbolTable.lt_size_of_cell made.cell
  obtain ⟨code'', body, whole⟩ := counts.2 room
  have whole' := last.extends
  have before : u.code = s.code ++ code ++ code' := by
    rw [cells.code, show t₅.advance.code = _ from written', show t₃.advance.code = _ from written,
      show t₁.advance.code = _ from takes.code, code_advance]
  have length : u.code.length = s.code.length + code.length + code'.length := by
    rw [before, List.length_append, List.length_append]
  have counted : t₁.temporaries = s.temporaries := takes.temporaries
  rw [cells.temporaries, length] at body
  rw [length, before] at whole
  refine ⟨_, ?_, .forLoop (whole'.lookup _ _ (grown.lookup _ _ found))
    (counted ▸ (starts'.extend grown).extend whole') ((upTo'.extend grown).extend whole')
    (whole'.lookup _ _ cells.steps) (whole'.kindAt known) (whole'.temporary copied)
    (whole'.result cells.made) body⟩
  rw [whole]
  simp

theorem anotherStatement_succeeds {semicolon : Token} {t : Session}
    (before : Lays stmt s (semicolon :: middle) () t) (is : semicolon.kind = .semicolon)
    (last : ∀ u : Session, u.ahead = middle → Succeeds scope statement u (Lays other u rest)) :
    Succeeds scope (anotherStatement statement ()) t fun found u =>
      ∃ b, found = some b ∧ Lays (.sequence stmt other) s rest b u := by
  obtain ⟨here, _⟩ := look_of_ahead before.1
  refine .lookKind_bind ?_
  rw [here, if_pos is]
  refine .bind (advance_succeeds before.1) fun _ u moves same => ?_
  obtain ⟨rfl, ahead⟩ := same
  refine .bind (last _ ahead) fun _ v moves' lays => .of_pure ⟨(), rfl, lays.1, fun room => ?_⟩
  have later : Moves False t v := moves.trans moves'
  obtain ⟨code, written, laid⟩ := before.2 (later.room room)
  obtain ⟨code', written', laid'⟩ := lays.2 room
  rw [code_advance, written] at written' laid'
  rw [List.length_append] at laid'
  refine ⟨code ++ code', ?_, .sequence (laid.extend later.extends) laid'⟩
  rw [written', List.append_assoc]

theorem statements_succeed
    (chains : Chains scope (anotherStatement statement) (statements statement) s rest
      (Lays stmt s rest))
    (ends : firstKind rest ≠ .semicolon) :
    Succeeds scope (statements statement) s (Lays stmt s rest) := by
  refine chains.done fun _ t _ lays => .lookKind_bind ?_
  rw [← firstKind_ahead, lays.1, if_neg ends]
  exact .of_pure ⟨rfl, rfl⟩

theorem blockBody_succeeds {last : Token} (tokens : s.ahead = token :: input)
    (begins : token.kind = .kwBegin) (ends : last.kind = .kwEnd)
    (body : ∀ u : Session, u.ahead = input →
      Succeeds scope (statements statement) u (Lays stmt u (last :: rest))) :
    Succeeds scope (blockBody statement) s (Lays stmt s rest) := by
  refine .traced (R := fun s => Lays _ s rest) Lays.blind (fun s tokens => ?_) tokens
  refine .bind (expect_succeeds tokens begins) fun _ t _ same => ?_
  obtain ⟨rfl, ahead⟩ := same
  refine .bind (body _ ahead) fun _ t _ lays => ?_
  refine (expect_succeeds lays.1 ends).mono fun _ u moves same => ?_
  obtain ⟨rfl, ahead⟩ := same
  refine ⟨ahead, fun room => ?_⟩
  obtain ⟨code, written, laid⟩ := lays.2 (moves.room room)
  exact ⟨code, written, laid.extend moves.extends⟩

end

/-! ## Any statement -/

/-- A statement that succeeds is not tried again, and neither is one that has no room. -/
theorem recovering_succeeds {body again : Rule Unit} {result : Unit → Session → Prop}
    (succeeds : Succeeds scope body s result) : Succeeds scope (recovering body again) s result := by
  intro quote items orderly
  have leads := succeeds quote items orderly
  cases ran : body s with
  | ok u t =>
    have holds := Leads.ok leads ran
    exact Leads.of_ok (t := t) (by simp only [recovering, ran]) holds
  | error abort t =>
    obtain ⟨rfl, exhausted, full⟩ := Leads.error leads ran
    have stays : resync t = .ok false t := by simp [resync, exhausted]
    exact Leads.of_error (by simp only [recovering, ran, stays]) ⟨rfl, exhausted, full⟩

/-- The rule for a statement inside another one. -/
abbrev nested (fuel : Nat) : Rule Unit := traced .statement (attemptWithin fuel)

theorem nested_succeeds {fuel : Nat} (tokens : s.ahead = input)
    (inner : ∀ s : Session, s.ahead = input → Succeeds scope (attemptWithin fuel) s (Lays stmt s rest)) :
    Succeeds scope (nested fuel) s (Lays stmt s rest) :=
  .traced (R := fun s => Lays stmt s rest) Lays.blind inner tokens

/-- What reading statements of each form achieves, with at most `fuel` of them in one another. -/
def CompiledStmt (scope : Scope) (fuel : Nat) (s : Session) (rest : List Token) (stmt : Stmt) :
    StmtForm → Prop
  | .one => Succeeds scope (attemptWithin fuel) s (Lays stmt s rest)
  | .many => Chains scope (anotherStatement (nested fuel)) (statements (nested fuel)) s rest
      (Lays stmt s rest)

/-- An attempt at a statement goes by its first token, and has fuel left for the tokens behind it. -/
theorem attempt_succeeds {fuel : Nat} (tokens : s.ahead = token :: input)
    (enough : (token :: input).length < fuel)
    (succeeds : ∀ n, input.length < n → s.look = token →
      Succeeds scope (dispatch (nested n)) s (Lays stmt s rest)) :
    Succeeds scope (attemptWithin fuel) s (Lays stmt s rest) := by
  obtain _ | n := fuel
  · omega
  · exact .of_eq rfl (recovering_succeeds
      (succeeds n (Nat.lt_of_succ_lt_succ enough) (look_of_ahead tokens).1))

/-- Every statement that the grammar derives is compiled. -/
theorem spelled_compiledStmt {form : StmtForm} {d : Bool}
    (spelled : stmt.Spelled True form d input rest) (closes : Closes d rest) {fuel : Nat}
    (enough : input.length < fuel) (allowed : ∀ name ∈ stmt.names, scope.Allows name)
    (tokens : s.ahead = input) : CompiledStmt scope fuel s rest stmt form := by
  induction spelled generalizing s fuel with
  | single _ ih =>
    exact .of_first (nested_succeeds tokens fun s => ih closes enough allowed) fun _ _ lays => lays.1
  | @sequence _ _ middle _ _ _ _ _ before is last ih ih' =>
    have shorter := before.length_le
    have shorter' := last.length_le
    simp only [List.length_cons] at shorter
    obtain ⟨allowed, allowed'⟩ := List.forall_mem_append.mp allowed
    refine (ih (closes_of_kind is ⟨rfl, rfl⟩ fun _ => nofun) enough allowed tokens).more
      (fun _ t _ lays => anotherStatement_succeeds lays is fun u tokens =>
        nested_succeeds tokens fun u => ih' closes (by omega) allowed') ?_
    simp only [List.length_cons]
    omega
  | @empty next _ is =>
    have nothing : Lays .empty s (next :: _) () s := ⟨tokens, fun _ => ⟨[], by simp, .empty⟩⟩
    refine attempt_succeeds tokens enough fun n _ look => .lookKind_bind ?_
    obtain is | is := is
    · rw [look, is]
      exact .of_pure nothing
    · rw [look, is]
      exact .of_pure nothing
  | assignment is assigns source =>
    refine attempt_succeeds tokens enough fun n _ look => .lookKind_bind ?_
    rw [look, is]
    exact assignment_succeeds tokens is assigns source closes.1 allowed
  | block begins _ ends ih =>
    refine attempt_succeeds tokens enough fun n enough look => .lookKind_bind ?_
    rw [look, begins]
    exact blockBody_succeeds tokens begins ends fun u tokens => statements_succeed
      (ih (closes_of_kind ends ⟨rfl, rfl⟩ fun _ => nofun) enough allowed tokens) (by simp [ends])
  | ifThen is test isThen _ ih =>
    refine attempt_succeeds tokens enough fun n enough look => .lookKind_bind ?_
    rw [look, is]
    obtain ⟨allowed, allowed'⟩ := List.forall_mem_append.mp allowed
    have shorter := test.shorter
    simp only [List.length_cons] at shorter
    exact ifThen_succeeds tokens test isThen allowed (fun u tokens => nested_succeeds tokens fun u =>
      ih ⟨closes.1, fun _ => closes.2 rfl⟩ (by omega) allowed') (closes.2 rfl)
  | ifElse is test isThen body own isElse _ ih ih' =>
    refine attempt_succeeds tokens enough fun n enough look => .lookKind_bind ?_
    rw [look, is]
    obtain ⟨allowed, allowed'⟩ := List.forall_mem_append.mp allowed
    obtain ⟨allowed', allowed''⟩ := List.forall_mem_append.mp allowed'
    have shorter := test.shorter
    have shorter' := body.length_le
    simp only [List.length_cons] at shorter shorter'
    -- the statement before the `ELSE` is closed, or the `ELSE` would be its own
    exact ifElse_succeeds tokens test isThen isElse allowed
      (fun u tokens => nested_succeeds tokens fun u => ih (closes_of_kind isElse ⟨rfl, rfl⟩
        fun dangles => by simp [own trivial] at dangles) (by omega) allowed')
      fun u tokens => nested_succeeds tokens fun u => ih' closes (by omega) allowed''
  | whileLoop is test isDo _ ih =>
    refine attempt_succeeds tokens enough fun n enough look => .lookKind_bind ?_
    rw [look, is]
    obtain ⟨allowed, allowed'⟩ := List.forall_mem_append.mp allowed
    have shorter := test.shorter
    simp only [List.length_cons] at shorter
    exact whileLoop_succeeds tokens test isDo allowed fun u tokens => nested_succeeds tokens fun u =>
      ih closes (by omega) allowed'
  | repeatLoop is body isUntil test ih =>
    refine attempt_succeeds tokens enough fun n enough look => .lookKind_bind ?_
    rw [look, is]
    obtain ⟨allowed, allowed'⟩ := List.forall_mem_append.mp allowed
    exact repeatLoop_succeeds tokens isUntil (fun u tokens => statements_succeed
      (ih (closes_of_kind isUntil ⟨rfl, rfl⟩ fun _ => nofun) enough allowed tokens)
      (by simp [isUntil])) test closes.1 allowed'
  | forLoop is counter assigns starts direction upTo isDo _ ih =>
    refine attempt_succeeds tokens enough fun n enough look => .lookKind_bind ?_
    rw [look, is]
    obtain ⟨first, allowed⟩ := List.forall_mem_cons.mp allowed
    obtain ⟨allowed, allowed'⟩ := List.forall_mem_append.mp allowed
    obtain ⟨allowed', allowed''⟩ := List.forall_mem_append.mp allowed'
    have shorter := starts.shorter
    have shorter' := upTo.shorter
    simp only [List.length_cons] at enough shorter shorter'
    exact forLoop_succeeds tokens counter assigns starts direction upTo isDo
      (List.forall_mem_cons.mpr ⟨first, List.forall_mem_append.mpr ⟨allowed, allowed'⟩⟩)
      fun u tokens => nested_succeeds tokens fun u => ih closes (by omega) allowed''
  | writeln is opens value closing =>
    refine attempt_succeeds tokens enough fun n _ look => .lookKind_bind ?_
    rw [look, is]
    exact writeln_succeeds tokens opens value closing allowed
  | readln is opens target closing =>
    refine attempt_succeeds tokens enough fun n _ look => .lookKind_bind ?_
    rw [look, is]
    exact readln_succeeds tokens opens target closing (allowed _ List.mem_cons_self)

/-- The statements of a program: each of them starts with the whole bound on their depth. -/
theorem statements_chain {form : StmtForm} {d : Bool} (spelled : stmt.Spelled True form d input rest)
    (many : form = .many) (closes : Closes d rest) (allowed : ∀ name ∈ stmt.names, scope.Allows name)
    (tokens : s.ahead = input) :
    Chains scope (anotherStatement statement) (statements statement) s rest (Lays stmt s rest) := by
  have one {stmt : Stmt} {d : Bool} {input rest : List Token} {u : Session}
      (spelled : stmt.Spelled True .one d input rest) (closes : Closes d rest)
      (allowed : ∀ name ∈ stmt.names, scope.Allows name) (tokens : u.ahead = input) :
      Succeeds scope statement u (Lays stmt u rest) := by
    have enough : input.length < u.unread.length + 2 := Nat.lt_succ_of_le (tokens ▸ u.length_ahead_le)
    exact .of_eq rfl (nested_succeeds tokens fun _ => spelled_compiledStmt spelled closes enough allowed)
  induction spelled with
  | single inner => exact .of_first (one inner closes allowed tokens) fun _ _ lays => lays.1
  | sequence before is last ih =>
    have shorter := last.length_le
    obtain ⟨allowed, allowed'⟩ := List.forall_mem_append.mp allowed
    exact (ih rfl (closes_of_kind is ⟨rfl, rfl⟩ fun _ => nofun) allowed tokens).more
      (fun _ t _ lays => anotherStatement_succeeds lays is fun u => one last closes allowed')
      (Nat.lt_succ_of_le shorter)
  | _ => cases many

theorem blockBody_compiled {d : Bool} {last : Token} (tokens : s.ahead = token :: input)
    (begins : token.kind = .kwBegin) (spelled : stmt.Spelled True .many d input (last :: rest))
    (ends : last.kind = .kwEnd) (allowed : ∀ name ∈ stmt.names, scope.Allows name) :
    Succeeds scope (blockBody statement) s (Lays stmt s rest) :=
  blockBody_succeeds tokens begins ends fun _ tokens => statements_succeed
    (statements_chain spelled rfl (closes_of_kind ends ⟨rfl, rfl⟩ fun _ => nofun) allowed tokens)
    (by simp [ends])

end Rule

end MiniPascal
