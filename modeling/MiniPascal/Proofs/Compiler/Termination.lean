import MiniPascal.Proofs.Scanning
import MiniPascal.Proofs.Compiler.Acceptance
import MiniPascal.Proofs.Compiler.Budget

/-! # A compilation comes to an end

A statement in which an error was found is tried again at the next token that a statement can start
with. Either the failed attempt has read that far, or the tokens up to there are skipped, so each
new attempt has fewer tokens ahead. With that, every rule is within its fuel, and what a compilation
stores is bounded by the number of its tokens, whatever the capacities of the tables are.
-/

namespace MiniPascal

namespace Rule

open Session

variable {n m b : Int} {s t u : Session}

theorem lookKind_bind {α : Type} {next : TokenKind → Rule α} {good : α → Session → Prop}
    {bad : Abort → Session → Prop} (lead : Leads (next s.look.kind) s good bad) :
    Leads (lookKind >>= next) s good bad := lead

/-! ## Going on after an error -/

theorem skipTokens_within (fuel skipped : Nat) (within : s.Within n b) :
    (skipTokens fuel skipped s).2.Within n b := by
  induction fuel generalizing skipped s n b with
  | zero => exact within
  | succ fuel ih =>
    unfold skipTokens
    split
    · exact within
    · rename_i other
      have more : s.look.kind ≠ .endOfInput := fun ended => other (.inl ended)
      exact (ih (skipped + 1) (within.advance more)).mono (by omega)

/-- A token that no statement starts with is skipped. -/
theorem skipTokens_reads (fuel skipped : Nat) (within : s.Within n b)
    (more : s.look.kind ≠ .endOfInput) (other : s.look.kind.startsStatement = false) :
    (skipTokens (fuel + 1) skipped s).2.Within (n - 1) b := by
  unfold skipTokens
  rw [if_neg (by simp [more, other])]
  exact (skipTokens_within fuel (skipped + 1) (within.advance more)).mono (by omega)

/-- More fuel than there are tokens skips the same tokens. -/
theorem skipTokens_of_enough (fuel more skipped : Nat) (enough : s.ahead.length < fuel)
    (enough' : s.ahead.length < more) : skipTokens fuel skipped s = skipTokens more skipped s := by
  induction fuel generalizing more skipped s with
  | zero => omega
  | succ fuel ih =>
    obtain _ | more := more
    · omega
    unfold skipTokens
    split
    · rfl
    · rename_i other
      have left : s.look.kind ≠ .endOfInput := fun ended => other (.inl ended)
      have shorter := s.length_advance left
      exact ih more (skipped + 1) (by omega) (by omega)

/-- Where to go on after an error: nowhere if a table is full, else where the skipping ends. -/
theorem resync_cases (s : Session) :
    (s.exhausted = true ∧ resync s = .ok false s) ∨
    s.exhausted = false ∧ ∃ journal : Journal,
      resync s = .ok (decide ((skipTokens (s.unread.length + 2) 0 s).2.look.kind ≠ .endOfInput))
        { (skipTokens (s.unread.length + 2) 0 s).2 with journal } := by
  unfold resync
  cases full : s.exhausted with
  | true => exact .inl ⟨rfl, rfl⟩
  | false =>
    right
    simp only [Bool.false_eq_true, if_false, true_and]
    split
    · rename_i ended
      exact ⟨_, by rw [decide_eq_false (not_not_intro ended)]; rfl⟩
    · rename_i more
      exact ⟨_, by rw [decide_eq_true more]; rfl⟩

/-- A statement that starts with another token fails there. -/
theorem dispatch_stays (statement : Rule Unit) (other : s.look.kind.startsStatement = false) :
    Leads (dispatch statement) s (fun _ _ => True) fun _ t => t.look = s.look := by
  apply lookKind_bind
  cases is : s.look.kind with
  | identifier | kwBegin | kwIf | kwWhile | kwRepeat | kwFor | kwWriteln | kwReadln =>
    rw [is] at other
    cases other
  | kwEnd | kwUntil => exact Leads.of_pure trivial
  | _ => exact Leads.get_bind (.modify_bind (.of_throw rfl))

theorem Affordable.traced {fuel : Nat} {statement : Rule Unit} (inner : Affordable fuel statement)
    {name : Nonterminal} : Affordable fuel (Rule.traced name statement) :=
  fun _ n b within enough => .traced within fun t within _ => inner t n b within enough

variable {fuel : Nat} {statement : Rule Unit} (inner : Affordable fuel statement)

include inner

/-- A statement that is tried again has fewer tokens ahead. -/
theorem retry_within (within : s.Within n b) (enough : n ≤ fuel)
    (failed : dispatch statement s = .error .gaveUp t) (resumed : resync t = .ok true u) :
    u.Within (n - 1) b := by
  obtain ⟨_, tokens, budget⟩ := Leads.error (dispatch_spends inner within enough) failed
  obtain ⟨_, same⟩ | ⟨room, journal, same⟩ := resync_cases t
  · rw [same] at resumed
    cases resumed
  rw [same] at resumed
  injection resumed with goesOn here
  subst here
  have tokens := tokens room
  cases starts : s.look.kind.startsStatement with
  | true =>
    rw [starts] at tokens
    exact skipTokens_within _ 0 ⟨tokens, budget⟩
  | false =>
    rw [starts] at tokens
    have look := Leads.error (dispatch_stays statement starts) failed
    have more : t.look.kind ≠ .endOfInput := by
      intro ended
      simp [skipTokens, ended] at goesOn
    rw [← look] at starts
    exact skipTokens_reads _ 0 ⟨tokens, budget⟩ more starts

theorem recovering_spends {again : Rule Unit} (retry : Affordable fuel again) (within : s.Within n b)
    (enough : n ≤ fuel) :
    Spends n b (recovering (dispatch statement) again) s fun _ t => t.Within n b := by
  have lead := dispatch_spends inner within enough
  have le : (if s.look.kind.startsStatement then n - 1 else n) ≤ n := by
    split <;> omega
  cases ran : dispatch statement s with
  | ok _ t =>
    have within' := Leads.ok lead ran
    exact Leads.of_ok (a := ()) (t := t) (by simp only [recovering, ran]) within'
  | error abort t =>
    obtain ⟨fueled, halted⟩ := Leads.error lead ran
    have halted : t.Halted n b := halted.mono ⟨le, Int.le_refl b⟩
    cases abort with
    | outOfFuel => exact absurd rfl fueled
    | crashed error =>
      exact Leads.of_error (e := Abort.crashed error) (by simp only [recovering, ran])
        ⟨by simp, halted⟩
    | gaveUp =>
      cases resumed : resync t with
      | error abort u =>
        obtain ⟨_, same⟩ | ⟨_, _, same⟩ := resync_cases t <;> (rw [same] at resumed; cases resumed)
      | ok goesOn u =>
        cases goesOn with
        | true =>
          have within' := retry_within inner within enough ran resumed
          have lead' := retry u (n - 1) b within' (by omega)
          have same : recovering (dispatch statement) again s = again u := by
            simp only [recovering, ran, resumed]
          unfold Spends Leads
          rw [same]
          exact Spends.relax lead' (by omega)
        | false =>
          refine Leads.of_error (e := Abort.gaveUp) (t := u)
            (by simp only [recovering, ran, resumed]) ⟨by simp, ?_⟩
          obtain ⟨full, same⟩ | ⟨room, journal, same⟩ := resync_cases t
          · rw [same] at resumed
            cases resumed
            exact halted
          · rw [same] at resumed
            injection resumed with _ here
            subst here
            exact (skipTokens_within _ 0 ⟨halted.1 room, halted.2⟩).halted

omit inner in
theorem attemptWithin_affordable (fuel : Nat) : Affordable fuel (attemptWithin fuel) := by
  induction fuel with
  | zero =>
    intro s n b within enough
    have := within.1
    omega
  | succ fuel ih =>
    intro s n b within enough
    exact recovering_spends ih.traced ih within (by omega)

omit inner in
/-- A statement costs nothing but its tokens, however many times it is tried again. -/
theorem statement_spends (within : s.Within n b) :
    Spends n b Rule.statement s fun _ t => t.Within n b := by
  have enough := s.length_ahead_le
  have within' : s.Within s.ahead.length b := ⟨Int.le_refl _, within.2⟩
  have spends : Spends s.ahead.length b (traced .statement (attemptWithin (s.unread.length + 2))) s
      fun _ t => t.Within s.ahead.length b :=
    .traced within' fun t within _ => attemptWithin_affordable _ t _ b within (by omega)
  apply Spends.of_eq (statement_eq s)
  exact Spends.relax spends ⟨⟨within.1, Int.le_refl b⟩, within.1, Int.le_refl b⟩

omit inner

/-! ## Programs -/

theorem progIdentifier_spends (within : s.Within n b) :
    Spends n b progIdentifier s fun _ t => t.Within n b := by
  refine .traced within fun s within _ => ?_
  refine .bind (identifier_spends within (fun _ => Int.le_refl n) (by omega)) (by omega)
    fun i t within => ?_
  refine .bind (.of_ask within _) (by omega) ?_
  rintro value t ⟨rfl, _⟩
  refine Spends.relax (.of_change within fun symbols written => ?_) (by omega)
  exact (SymbolTable.update_keeps written).1

theorem simpleType_spends (within : s.Within n b) :
    Spends n b simpleType s fun _ t => t.Within n (b - 15) := by
  refine .traced within fun s within _ => .lookKind_bind ?_
  split
  · rename_i is
    exact .advance_return (by simp [is]) within Kind.integer
  · rename_i is
    exact .advance_return (by simp [is]) within Kind.real
  · rename_i is
    exact .advance_return (by simp [is]) within Kind.text
  · exact .of_failExpecting within _

theorem declare_spends (within : s.Within n b) (kind : Kind) (i : Nat) :
    Spends n b (declare kind i) s fun _ t => t.Within n b := by
  have rest {t : Session} (within : t.Within n b) : Spends n b (do
      modify fun s => { s with declared := i :: s.declared }
      change (·.declare i kind)) t fun _ u => u.Within n b := by
    apply Leads.modify_bind
    exact Spends.of_change (s := { t with declared := i :: t.declared }) within
      fun symbols written => (SymbolTable.declare_keeps written).1
  apply Spends.get_bind
  dsimp only
  split
  · refine .bind (.of_ask within _) (by omega) ?_
    rintro name t ⟨rfl, _⟩
    exact Leads.modify_bind (rest within)
  · exact rest within

theorem declareAll_spends (within : s.Within n b) (kind : Kind) (ids : List Nat) :
    Spends n b (ids.forM (declare kind)) s fun _ t => t.Within n b := by
  induction ids generalizing s with
  | nil => exact .of_pure within
  | cons i ids ih => exact .bind (declare_spends within kind i) (by omega) fun _ t within => ih within

theorem identifiers_spend (within : s.Within n b) :
    Spends n b identifiers s fun _ t => t.Within (n - 1) b := by
  refine .bind (identifier_spends within (fun _ => Int.le_refl n) (by omega)) (by omega)
    fun i t within => ?_
  refine Spends.relax (.repeated within fun ids t k within le => .lookKind_bind ?_) (by omega)
  split
  · rename_i is
    refine .bind (.of_advance (by simp [is]) within) (by omega) fun _ u within => ?_
    refine .bind (identifier_spends within (fun _ => Int.le_refl _) (by omega)) (by omega)
      fun i u within => ?_
    exact .of_pure (within.mono (by omega))
  · exact .of_pure within

theorem declarationGroup_spends (within : s.Within n b) :
    Spends n b declarationGroup s fun _ t => t.Within (n - 1) b := by
  refine .bind (identifiers_spend within) (by omega) fun ids t within => ?_
  refine .bind (.of_expect .colon nofun within fun _ => Int.le_refl _) (by omega) fun _ t within => ?_
  refine .bind (simpleType_spends within) (by omega) fun kind t within => ?_
  refine .bind (declareAll_spends within kind ids) (by omega) fun _ t within => ?_
  exact Spends.relax (.of_expect .semicolon nofun within fun _ => Int.le_refl _) (by omega)

theorem varDeclarations_spends (within : s.Within n b) :
    Spends n b varDeclarations s fun _ t => t.Within n b := by
  refine .traced within fun s within _ => .repeated within fun _ t k within le => ?_
  refine .bind (declarationGroup_spends within) (by omega) fun _ t within => .lookKind_bind ?_
  split
  · exact .of_pure within
  · exact .of_pure (within.mono (by omega))

theorem varSections_spends (within : s.Within n b) :
    Spends n b varSections s fun _ t => t.Within n b := by
  refine .repeated within fun _ t k within le => .lookKind_bind ?_
  split
  · rename_i is
    refine .bind (.of_advance (by simp [is]) within) (by omega) fun _ u within => ?_
    refine .bind (varDeclarations_spends within) (by omega) fun _ u within => ?_
    exact .of_pure (within.mono (by omega))
  · exact .of_pure within

theorem block_spends (within : s.Within n b) : Spends n b block s fun _ t => t.Within n b := by
  refine .traced within fun s within _ => ?_
  refine .bind (varSections_spends within) (by omega) fun _ t within => ?_
  have inner : Affordable n.toNat Rule.statement := fun _ _ _ within _ => statement_spends within
  exact Spends.relax (blockBody_spends inner within (by omega) (fun _ => Int.le_refl n) (by omega))
    (by omega)

/-- A whole program costs nothing but its tokens. -/
theorem program_spends (within : s.Within n b) : Spends n b program s fun _ t => t.Within n b := by
  refine .traced within fun s within _ => ?_
  refine .bind (.of_expect .kwUnit nofun within fun _ => Int.le_refl _) (by omega)
    fun _ t within => ?_
  refine .bind (progIdentifier_spends within) (by omega) fun _ t within => ?_
  refine .bind (.of_expect .semicolon nofun within fun _ => Int.le_refl _) (by omega)
    fun _ t within => ?_
  refine .bind (block_spends within) (by omega) fun _ t within => ?_
  refine .bind (.of_expect .period nofun within fun _ => Int.le_refl _) (by omega)
    fun _ t within => ?_
  refine .bind (emit_spends within _ _ _ _) (by omega) fun _ t within => ?_
  exact .of_pure (within.mono (by omega))

end Rule

/-! ## Tokens from a text -/

/-- The tokens still to be handed over are those from a place of the text on. -/
def Lexing.At (quote : Char) (failure : Option Failure) (place : Scan.Place) (lexing : Lexing) : Prop :=
  lexing.unread = Scan.itemsFrom quote failure place

/-- A token that is handed over takes at least one character away. -/
theorem Lexing.At.next {quote : Char} {failure : Option Failure} {place : Scan.Place}
    {lexing : Lexing} {token : Token} (here : lexing.At quote failure place)
    (found : lexing.next.1 = some token) :
    ∃ after, lexing.next.2.At quote failure after ∧ after.size < place.size := by
  have unread := here.trans (Scan.itemsFrom_eq quote failure place)
  have rest := (Lexing.next_cons unread).2.1
  have some_ : (Scan.request quote failure place).1.lexeme.isSome := by
    cases lexeme : (Scan.request quote failure place).1.lexeme with
    | some _ => rfl
    | none => simp [Lexing.next, unread, lexeme] at found
  rw [if_pos some_] at rest
  exact ⟨_, rest, Scan.request_size some_⟩

/-- Reading a text ends where there is nothing left to read: no bound on the number of lines is in
the way, and each token takes at least one character away. -/
structure ReadingEnds (quote : Char) (input : Input) : Prop where
  lines : ∀ fuel, input.unread < fuel → input.drain fuel = input.lines
  start : ∀ capacity watch, (Lexing.start quote capacity watch input).At quote input.lines.2
    ⟨[], 0, input.lines.1⟩
  tokens : ∀ (place : Scan.Place) (lexing : Lexing) (token : Token),
    lexing.At quote input.lines.2 place → lexing.next.1 = some token →
      ∃ after, lexing.next.2.At quote input.lines.2 after ∧ after.size < place.size

theorem readingEnds (quote : Char) (input : Input) : ReadingEnds quote input where
  lines fuel enough := Input.drain_of_enough fuel _ enough (Nat.lt_succ_self _)
  start _ _ := rfl
  tokens _ _ _ here found := here.next found

/-- Going on after an error ends: a statement that is tried again has fewer tokens ahead, and no
bound on the number of skipped tokens is in the way. -/
structure RecoveryEnds : Prop where
  retry : ∀ (fuel : Nat) (s t u : Session), s.ahead.length ≤ fuel →
    Rule.dispatch (Rule.traced .statement (Rule.attemptWithin fuel)) s = .error .gaveUp t →
    Rule.resync t = .ok true u → u.ahead.length < s.ahead.length
  skip : ∀ (fuel skipped : Nat) (s : Session), s.ahead.length < fuel →
    Rule.skipTokens fuel skipped s = Rule.skipTokens (s.unread.length + 2) skipped s

theorem recoveryEnds : RecoveryEnds where
  retry fuel s t u enough failed resumed := by
    have within : s.Within s.ahead.length s.budget := ⟨Int.le_refl _, Int.le_refl _⟩
    have reads := Rule.retry_within ((Rule.attemptWithin_affordable fuel).traced) within (by omega)
      failed resumed
    have := reads.1
    omega
  skip fuel skipped s enough := by
    have := s.length_ahead_le
    exact Rule.skipTokens_of_enough fuel _ skipped enough (by omega)

/-! ## Compilations -/

open Session Rule

variable (options : CompileOptions) (input : Input)

theorem firstSession_within : (firstSession options input).Within
    (tokensOf (scanned options input)).length
    (16 * (tokensOf (scanned options input)).length + 1) := by
  have grown : (firstSession options input).symbols.size ≤ 1 := size_advance_le _
  have quads : (firstSession options input).quads.size = 0 := rfl
  simp only [Session.Within, Session.budget, ahead_firstSession, quads]
  omega

/-- No compilation runs out of fuel. -/
theorem verdict_ne_outOfFuel : (compile options input).verdict ≠ .outOfFuel := by
  have lead := program_spends (firstSession_within options input)
  unfold compile
  cases ran : Rule.program (firstSession options input) with
  | ok _ t =>
    unfold Session.finish
    dsimp only
    split <;> nofun
  | error abort t =>
    obtain ⟨fueled, _⟩ := Leads.error lead ran
    cases abort with
    | outOfFuel => exact absurd rfl fueled
    | crashed error => nofun
    | gaveUp =>
      unfold Session.finish
      dsimp only
      split <;> nofun

/-- What a compilation stores is bounded by the number of tokens, whatever the capacities are. -/
theorem stored_le : (compile options input).program.symbols.size +
    (compile options input).program.quads.size ≤ 16 * (tokensOf (scanned options input)).length + 1 := by
  have lead := program_spends (firstSession_within options input)
  cases ran : Rule.program (firstSession options input) with
  | ok _ t =>
    obtain ⟨_, budget⟩ := Leads.ok lead ran
    rw [tables_of_ok ran]
    simp only [Session.budget] at budget ⊢
    omega
  | error abort t =>
    obtain ⟨_, _, budget⟩ := Leads.error lead ran
    rw [tables_of_error ran]
    simp only [Session.budget] at budget ⊢
    omega

/-- A compilation ends: reading the text and going on after errors are bounded by what is left to read,
and no rule runs out of fuel. -/
theorem compile_terminates : ReadingEnds options.quote input ∧ RecoveryEnds ∧
    (compile options input).verdict ≠ .outOfFuel :=
  ⟨readingEnds options.quote input, recoveryEnds, verdict_ne_outOfFuel options input⟩

/-- A compilation ends with a program, or with errors that were counted. It never reads or changes a
cell that is not there or has another kind. -/
theorem compile_accepts_or_rejects : (compile options input).verdict = .accepted ∨
    ∃ errors, 0 < errors ∧ (compile options input).verdict = .rejected errors := by
  have finishes (t : Session) : t.finish.verdict = .accepted ∨
      ∃ errors, 0 < errors ∧ t.finish.verdict = .rejected errors := by
    unfold Session.finish
    dsimp only
    split
    · exact .inl rfl
    · exact .inr ⟨_, by omega, rfl⟩
  have leads := program_does _ (firstSession_orderly options input).valid
  have fueled := verdict_ne_outOfFuel options input
  unfold compile at fueled ⊢
  cases ran : Rule.program (firstSession options input) with
  | ok _ t => exact finishes t
  | error abort t =>
    obtain ⟨_, excused⟩ := Leads.error leads ran
    simp only [ran] at fueled
    cases abort with
    | gaveUp => exact finishes t
    | crashed error => exact excused.elim
    | outOfFuel => exact absurd rfl fueled

end MiniPascal
