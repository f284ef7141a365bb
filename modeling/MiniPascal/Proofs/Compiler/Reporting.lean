import MiniPascal.Proofs.Compiler.Composition
import MiniPascal.Proofs.Lexing.MaximalMunch

/-! # Every error is reported

Errors are counted in two places, by the requests for tokens and by the grammar rules, and each of them is
reported when it is counted. A grammar rule that gives up has reported an error. A statement may go on after
an error, and then nothing of it is left in how the rule ends, but it stays counted. So the grammar rules
counted an error exactly if one of them gave up in the course of the compilation.
-/

namespace MiniPascal

namespace Session

/-- The errors counted so far. -/
def errors (s : Session) : Nat := s.syntaxErrors + s.lexicalErrors

/-- All errors that are counted are reported, and no other ones. -/
structure Reports (s t : Session) : Prop where
  watch : t.journal.watch = s.journal.watch
  counted : ∃ issues : List Diagnostic, t.errors = s.errors + issues.countP (·.level = .error) ∧
    (s.journal.watch.diagnostics = true → t.journal.reports = s.journal.reports ++ issues)
  grows : s.syntaxErrors ≤ t.syntaxErrors

/-- The session in which the body of a grammar rule starts. -/
def entered (s : Session) (rule : Nonterminal) : Session :=
  { s.note (.enter s.depth rule) with depth := s.depth + 1 }

/-- The session after a grammar rule is left. -/
def left (s : Session) (rule : Nonterminal) : Session :=
  { s.note (.leave (s.depth - 1) rule) with depth := s.depth - 1 }

namespace Reports

variable {s t u : Session}

/-- Nothing is counted and nothing is reported. -/
theorem of_same (journal : t.journal = s.journal) (lexical : t.lexicalErrors = s.lexicalErrors)
    (syntactic : t.syntaxErrors = s.syntaxErrors) : s.Reports t where
  watch := by rw [journal]
  counted := ⟨[], by simp [errors, lexical, syntactic], fun _ => by simp [journal]⟩
  grows := Nat.le_of_eq syntactic.symm

theorem refl (s : Session) : s.Reports s := of_same rfl rfl rfl

theorem trans (first : s.Reports t) (second : t.Reports u) : s.Reports u where
  watch := second.watch.trans first.watch
  counted := by
    obtain ⟨issues, errors, reports⟩ := first.counted
    obtain ⟨more, errors', reports'⟩ := second.counted
    refine ⟨issues ++ more, ?_, fun watched => ?_⟩
    · rw [errors', errors, List.countP_append, Nat.add_assoc]
    · rw [reports' (first.watch ▸ watched), reports watched, List.append_assoc]
  grows := Nat.le_trans first.grows second.grows

theorem advance (s : Session) : s.Reports s.advance := by
  cases unread : s.unread with
  | nil =>
    unfold Session.advance
    rw [Lexing.next_nil unread]
    exact of_same rfl rfl rfl
  | cons item items =>
    have told : s.unread.map Scanned.outcome = item.outcome :: items.map Scanned.outcome := by
      rw [unread, List.map_cons]
    obtain ⟨_, _, _, _, complains⟩ := Lexing.next_spec told
    refine ⟨complains.watch, ⟨_, ?_, complains.reports⟩, Nat.le_refl _⟩
    change s.syntaxErrors + s.next.2.lexicalErrors = s.syntaxErrors + s.lexicalErrors + _
    rw [complains.errors, Nat.add_assoc]

/-- An event that reports nothing. -/
theorem note {event : Event} (silent : event.report? = none) (s : Session) : s.Reports (s.note event) := by
  obtain ⟨_, watch, reports⟩ := Lexing.Complains.note silent s.toLexing
  exact ⟨watch, ⟨[], rfl, reports⟩, Nat.le_refl _⟩

theorem entered (s : Session) (rule : Nonterminal) : s.Reports (s.entered rule) :=
  (note rfl s).trans (of_same rfl rfl rfl)

theorem left (s : Session) (rule : Nonterminal) : s.Reports (s.left rule) :=
  (note rfl s).trans (of_same rfl rfl rfl)

/-- A report that is no error. -/
theorem remark {diagnostic : Diagnostic} (mild : diagnostic.level ≠ .error) (s : Session) :
    s.Reports (s.note (.report diagnostic)) := by
  obtain ⟨_, watch, reports⟩ := Lexing.Complains.report s.toLexing diagnostic
  exact ⟨watch, ⟨[diagnostic], by simp [errors, Session.note, mild], reports⟩, Nat.le_refl _⟩

/-- An error of a grammar rule. -/
theorem fail {diagnostic : Diagnostic} (is : diagnostic.level = .error) (s : Session) :
    s.Reports { s.note (.report diagnostic) with syntaxErrors := s.syntaxErrors + 1 } := by
  obtain ⟨_, watch, reports⟩ := Lexing.Complains.report s.toLexing diagnostic
  refine ⟨watch, ⟨[diagnostic], ?_, reports⟩, Nat.le_succ _⟩
  simp [errors, Session.note, is]
  omega

end Reports

end Session

namespace Rule

variable {α β : Type} {s t : Session}

theorem traced_leads {rule : Nonterminal} {body : Rule α} {good : α → Session → Prop}
    {bad : Abort → Session → Prop} (lead : Leads body (s.entered rule)
      (fun a t => good a (t.left rule)) fun abort t => bad abort (t.left rule)) :
    Leads (traced rule body) s good bad := by
  cases ran : body (s.entered rule) with
  | ok a t => exact Leads.of_ok (traced_of_ok ran) (lead.ok ran)
  | error abort t => exact Leads.of_error (traced_of_error ran) (lead.error ran)

/-! ## Basic rules -/

/-- A rule that gives up exactly if it has counted an error. -/
def Frank (x : Rule α) (s : Session) : Prop :=
  Leads x s (fun _ t => s.Reports t ∧ t.syntaxErrors = s.syntaxErrors) fun abort t =>
    s.Reports t ∧ (abort = .gaveUp ↔ t.syntaxErrors ≠ s.syntaxErrors)

namespace Frank

variable {x : Rule α} {f : α → Rule β}

theorem of_ok {a : α} (ran : x s = .ok a t) (reports : s.Reports t)
    (same : t.syntaxErrors = s.syntaxErrors) : Frank x s :=
  Leads.of_ok ran ⟨reports, same⟩

theorem bind (first : Frank x s) (second : ∀ a t, Frank (f a) t) : Frank (x >>= f) s := by
  refine Leads.bind (first.mono (fun a t ⟨reports, same⟩ => ?_) fun _ _ => id)
  refine (second a t).mono (fun b u ⟨reports', same'⟩ => ?_) fun abort u ⟨reports', gaveUp⟩ => ?_
  · exact ⟨reports.trans reports', same'.trans same⟩
  · exact ⟨reports.trans reports', same ▸ gaveUp⟩

theorem fail {diagnostic : Diagnostic} (is : diagnostic.level = .error) (s : Session) :
    Frank (fail diagnostic : Rule α) s :=
  Leads.of_error rfl ⟨.fail is s, by simp⟩

theorem failFull {diagnostic : Diagnostic} (is : diagnostic.level = .error) (s : Session) :
    Frank (failFull diagnostic : Rule α) s := by
  have exhausted : s.Reports { s with exhausted := true } := .of_same rfl rfl rfl
  exact Leads.of_error rfl ⟨exhausted.trans (.fail is _), by simp⟩

theorem failExpecting (wanted : Text) (s : Session) : Frank (failExpecting wanted : Rule α) s :=
  Leads.get_bind (fail rfl s)

theorem ask (read : SymbolTable → Except AccessError α) (s : Session) : Frank (ask read) s := by
  cases answer : read s.symbols with
  | ok a => exact of_ok (ask_of_ok answer) (.refl s) rfl
  | error error => exact Leads.of_error (ask_of_error answer) ⟨.refl s, by simp⟩

theorem change (write : SymbolTable → Except AccessError SymbolTable) (s : Session) :
    Frank (change write) s :=
  bind (ask write s) fun _ _ => of_ok rfl (.of_same rfl rfl rfl) rfl

theorem advance (s : Session) : Frank advance s := of_ok rfl (.advance s) rfl

theorem lookKind (s : Session) : Frank lookKind s := of_ok rfl (.refl s) rfl

theorem emit (op : Opcode) (a b c : Int) (s : Session) : Frank (emit op a b c) s := by
  refine Leads.get_bind ?_
  split
  · exact of_ok rfl (.of_same rfl rfl rfl) rfl
  · exact failFull rfl s

theorem symbol (name : Text) (value : Value) (s : Session) : Frank (symbol name value) s := by
  refine Leads.get_bind ?_
  split
  · exact of_ok rfl (.of_same rfl rfl rfl) rfl
  · exact failFull rfl s

theorem temporary (kind : Kind) (s : Session) : Frank (temporary kind) s := by
  refine bind (of_ok rfl (.of_same rfl rfl rfl) rfl) fun _ t => ?_
  exact Leads.get_bind (symbol _ _ t)

theorem registered (s : Session) : Frank registered s := by
  refine Leads.get_bind ?_
  split
  · exact bind (advance s) fun _ t => of_ok rfl (.refl t) rfl
  · exact failFull rfl s

theorem identifier (s : Session) : Frank identifier s := by
  refine bind (lookKind s) fun kind t => ?_
  split
  · exact registered t
  · exact failExpecting _ t

theorem traced {rule : Nonterminal} {body : Rule α} (inner : ∀ t, Frank body t) (s : Session) :
    Frank (traced rule body) s := by
  refine traced_leads ((inner (s.entered rule)).mono ?_ ?_)
  · rintro a t ⟨reports, same⟩
    exact ⟨((Session.Reports.entered s rule).trans reports).trans (.left t rule), same⟩
  · rintro abort t ⟨reports, gaveUp⟩
    exact ⟨((Session.Reports.entered s rule).trans reports).trans (.left t rule), gaveUp⟩

theorem variableUse (s : Session) : Frank variableUse s := by
  refine traced (fun s => Leads.get_bind ?_) s
  refine bind (identifier s) fun i t => bind (ask _ t) fun usage u => ?_
  split
  · exact fail rfl u
  · refine Leads.get_bind ?_
    split
    · have warned := @Session.Reports.remark (.undeclared s.look.lexeme) nofun u
      exact of_ok rfl (warned.trans (.of_same rfl rfl rfl)) rfl
    · exact of_ok rfl (.refl u) rfl

theorem nameProgram (i : Nat) (s : Session) :
    Frank (Rule.ask (·.value i) >>= fun value => Rule.change (·.update i .program value)) s :=
  bind (ask _ s) fun _ => change _

theorem declare (kind : Kind) (i : Nat) (s : Session) : Frank (declare kind i) s := by
  refine Leads.get_bind ?_
  split
  · refine bind (ask _ s) fun name t => ?_
    have warned := @Session.Reports.remark (.declaredAgain name) nofun t
    refine bind (of_ok rfl warned rfl) fun _ u => ?_
    exact bind (of_ok rfl (.of_same rfl rfl rfl) rfl) fun _ => change _
  · exact bind (of_ok rfl (.of_same rfl rfl rfl) rfl) fun _ => change _

end Frank

theorem Basic.frank {x : Rule α} (basic : Basic x) (s : Session) : Frank x s := by
  cases basic with
  | lookKind => exact .lookKind s
  | advance => exact .advance s
  | failExpecting wanted => exact .failExpecting wanted s
  | emit op a b c => exact .emit op a b c s
  | nextQuad => exact .of_ok rfl (.refl s) rfl
  | patch i target => exact .of_ok rfl (.of_same rfl rfl rfl) rfl
  | constant n => exact .symbol _ _ s
  | temporary kind => exact .temporary kind s
  | kindOf i => exact .ask _ s
  | registered => exact .registered s
  | variableUse => exact .variableUse s
  | nameProgram i => exact .nameProgram i s
  | declare kind i => exact .declare kind i s

/-! ## All rules -/

/-- Whatever comes of a rule, all errors are reported, and a rule that gives up has counted one. -/
def Accounts (x : Rule α) (s : Session) : Prop :=
  Leads x s (fun _ t => s.Reports t) fun abort t =>
    s.Reports t ∧ (abort = .gaveUp → s.syntaxErrors < t.syntaxErrors)

theorem Frank.accounts {x : Rule α} (frank : Frank x s) : Accounts x s := by
  refine frank.mono (fun _ _ ⟨reports, _⟩ => reports) fun abort t ⟨reports, gaveUp⟩ => ⟨reports, ?_⟩
  exact fun is => Nat.lt_of_le_of_ne reports.grows (gaveUp.mp is).symm

theorem skipTokens_reports (fuel skipped : Nat) (s : Session) :
    s.Reports (skipTokens fuel skipped s).2 := by
  induction fuel generalizing skipped s with
  | zero => exact .refl s
  | succ fuel ih =>
    unfold skipTokens
    split
    · exact .refl s
    · exact (Session.Reports.advance s).trans (ih _ _)

theorem resync_reports (s : Session) : ∃ goesOn t, resync s = .ok goesOn t ∧ s.Reports t := by
  have skipped := skipTokens_reports (s.unread.length + 2) 0 s
  unfold resync
  split
  · exact ⟨_, _, rfl, .refl s⟩
  · dsimp only
    split
    · exact ⟨_, _, rfl, skipped.trans (@Session.Reports.remark .noStatementLeft nofun _)⟩
    · exact ⟨_, _, rfl, skipped.trans (@Session.Reports.remark (.resumed ..) nofun _)⟩

/-- The ways in which a rule goes on after its body. -/
theorem recovering_cases (body again : Rule Unit) (s : Session) :
    (∃ t, body s = .ok () t ∧ recovering body again s = .ok () t) ∨
    (∃ abort t, body s = .error abort t ∧ abort ≠ .gaveUp ∧
      recovering body again s = .error abort t) ∨
    (∃ t u, body s = .error .gaveUp t ∧ resync t = .ok false u ∧ t.Reports u ∧
      recovering body again s = .error .gaveUp u) ∨
    ∃ t u, body s = .error .gaveUp t ∧ resync t = .ok true u ∧ t.Reports u ∧
      recovering body again s = again u := by
  cases ran : body s with
  | ok a t => exact .inl ⟨t, rfl, recovering_of_ok ran⟩
  | error abort t =>
    by_cases gaveUp : abort = .gaveUp
    · subst gaveUp
      obtain ⟨goesOn, u, resumed, reports⟩ := resync_reports t
      have goes : recovering body again s = _ := (recovering_of_gaveUp ran).trans (bind_of_ok resumed)
      cases goesOn with
      | false => exact .inr (.inr (.inl ⟨t, u, rfl, resumed, reports, goes⟩))
      | true => exact .inr (.inr (.inr ⟨t, u, rfl, resumed, reports, goes⟩))
    · exact .inr (.inl ⟨abort, t, rfl, gaveUp, recovering_of_abort ran gaveUp⟩)

theorem recovering_accounts {body again : Rule Unit} (inner : Accounts body s)
    (later : ∀ t, Accounts again t) : Accounts (recovering body again) s := by
  obtain ⟨t, ran, goes⟩ | ⟨abort, t, ran, _, goes⟩ | ⟨t, u, ran, _, skips, goes⟩ |
    ⟨t, u, ran, _, skips, goes⟩ := recovering_cases body again s
  · exact Leads.of_ok goes (inner.ok ran)
  · exact Leads.of_error goes (inner.error ran)
  · obtain ⟨reports, counts⟩ := inner.error ran
    exact Leads.of_error goes
      ⟨reports.trans skips, fun _ => Nat.lt_of_lt_of_le (counts rfl) skips.grows⟩
  · -- the error that was counted before stays counted
    obtain ⟨reports, counts⟩ := inner.error ran
    have counted : s.syntaxErrors < u.syntaxErrors := Nat.lt_of_lt_of_le (counts rfl) skips.grows
    unfold Accounts Leads
    rw [goes]
    refine (later u).mono (fun _ v reports' => ?_) fun abort v ⟨reports', _⟩ => ⟨?_, fun _ => ?_⟩
    · exact (reports.trans skips).trans reports'
    · exact (reports.trans skips).trans reports'
    · exact Nat.lt_of_lt_of_le counted reports'.grows

theorem Composed.accounts {x : Rule α} (composed : Composed x) (s : Session) : Accounts x s := by
  induction composed generalizing s with
  | basic is => exact (is.frank s).accounts
  | pure a => exact Leads.of_ok rfl (.refl s)
  | outOfFuel => exact Leads.of_error rfl ⟨.refl s, nofun⟩
  | bind _ _ first second =>
    refine Leads.bind ((first s).mono (fun a t reports => ?_) fun _ _ => id)
    refine (second a t).mono (fun b u reports' => reports.trans reports') ?_
    exact fun abort u ⟨reports', counts⟩ =>
      ⟨reports.trans reports', fun gaveUp => Nat.lt_of_le_of_lt reports.grows (counts gaveUp)⟩
  | traced rule _ inner =>
    have enters := Session.Reports.entered s rule
    refine traced_leads ((inner (s.entered rule)).mono (fun a t reports => ?_) fun abort t => ?_)
    · exact (enters.trans reports).trans (.left t rule)
    · exact fun ⟨reports, counts⟩ => ⟨(enters.trans reports).trans (.left t rule), counts⟩
  | bounded _ inner => exact inner _ s
  | recovering _ _ inner later => exact recovering_accounts (inner s) later

/-! ## Rules that run in the course of others -/

/-- In the course of a rule, another one runs from the session `t` on. -/
inductive Runs {β : Type} (y : Rule β) (t : Session) : {α : Type} → Rule α → Session → Prop
  | self (composed : Composed y) : Runs y t y t
  | first {α γ : Type} {x : Rule α} {f : α → Rule γ} {s : Session} (runs : Runs y t x s)
      (second : ∀ a, Composed (f a)) : Runs y t (x >>= f) s
  | second {α γ : Type} {x : Rule α} {f : α → Rule γ} {s u : Session} {a : α} (first : Composed x)
      (ran : x s = .ok a u) (runs : Runs y t (f a) u) : Runs y t (x >>= f) s
  | traced {α : Type} {rule : Nonterminal} {body : Rule α} {s : Session}
      (runs : Runs y t body (s.entered rule)) : Runs y t (traced rule body) s
  | bounded {α : Type} {body : Nat → Rule α} {s : Session}
      (runs : Runs y t (body (s.unread.length + 2)) s) : Runs y t (fun s => body (s.unread.length + 2) s) s
  | attempt {body again : Rule Unit} {s : Session} (runs : Runs y t body s) (later : Composed again) :
      Runs y t (recovering body again) s
  | again {body again : Rule Unit} {s u v : Session} (inner : Composed body)
      (ran : body s = .error .gaveUp u) (resumed : resync u = .ok true v) (runs : Runs y t again v) :
      Runs y t (recovering body again) s

/-- Some rule gives up in the course of a rule. -/
def GivesUpIn (x : Rule α) (s : Session) : Prop :=
  ∃ (β : Type) (y : Rule β) (t u : Session), Runs y t x s ∧ y t = .error .gaveUp u

/-- Whatever comes of a rule, the grammar rules have counted another error. -/
def CountsError (x : Rule α) (s : Session) : Prop :=
  Leads x s (fun _ t => s.syntaxErrors < t.syntaxErrors) fun _ t => s.syntaxErrors < t.syntaxErrors

/-- What is counted stays counted. -/
theorem Composed.keeps {x : Rule α} (composed : Composed x) {n : Nat} (counted : n < s.syntaxErrors) :
    Leads x s (fun _ t => n < t.syntaxErrors) fun _ t => n < t.syntaxErrors :=
  (composed.accounts s).mono (fun _ _ reports => Nat.lt_of_lt_of_le counted reports.grows)
    fun _ _ ⟨reports, _⟩ => Nat.lt_of_lt_of_le counted reports.grows

theorem Runs.countsError {y : Rule β} {u : Session} {x : Rule α} (runs : Runs y t x s)
    (gaveUp : y t = .error .gaveUp u) : CountsError x s := by
  induction runs with
  | self composed => exact Leads.of_error gaveUp (((composed.accounts t).error gaveUp).2 rfl)
  | first _ second counts =>
    exact Leads.bind (counts.mono (fun a _ counted => (second a).keeps counted) fun _ _ => id)
  | second first ran _ counts =>
    have reports := (first.accounts _).ok ran
    refine Leads.bind (Leads.of_ok ran (counts.mono (fun _ _ => ?_) fun _ _ => ?_))
    · exact Nat.lt_of_le_of_lt reports.grows
    · exact Nat.lt_of_le_of_lt reports.grows
  | traced _ counts => exact traced_leads counts
  | bounded _ counts => exact counts
  | @attempt body again s _ later counts =>
    obtain ⟨t, ran, goes⟩ | ⟨abort, t, ran, _, goes⟩ | ⟨t, u, ran, _, skips, goes⟩ |
      ⟨t, u, ran, _, skips, goes⟩ := recovering_cases body again s
    · exact Leads.of_ok goes (counts.ok ran)
    · exact Leads.of_error goes (counts.error ran)
    · exact Leads.of_error goes (Nat.lt_of_lt_of_le (counts.error ran) skips.grows)
    · have kept := later.keeps (Nat.lt_of_lt_of_le (counts.error ran) skips.grows)
      unfold CountsError Leads
      rw [goes]
      exact kept
  | @again body again s u v inner ran resumed _ counts =>
    have goes : recovering body again s = again v :=
      (recovering_of_gaveUp ran).trans (bind_of_ok resumed)
    obtain ⟨_, _, resumed', skips⟩ := resync_reports u
    cases resumed.symm.trans resumed'
    have counted : s.syntaxErrors ≤ v.syntaxErrors :=
      Nat.le_trans ((inner.accounts s).error ran).1.grows skips.grows
    unfold CountsError Leads
    rw [goes]
    exact counts.mono (fun _ _ => Nat.lt_of_le_of_lt counted) fun _ _ => Nat.lt_of_le_of_lt counted

/-- The grammar rules count an error only if one of them gives up. -/
theorem Composed.givesUpIn {x : Rule α} (composed : Composed x) (s : Session) :
    Leads x s (fun _ t => s.syntaxErrors < t.syntaxErrors → GivesUpIn x s) fun _ t =>
      s.syntaxErrors < t.syntaxErrors → GivesUpIn x s := by
  induction composed generalizing s with
  | @basic _ x is =>
    cases ran : x s with
    | ok a t =>
      obtain ⟨_, same⟩ := (is.frank s).ok ran
      exact Leads.of_ok ran fun counted => absurd same (Nat.ne_of_gt counted)
    | error abort t =>
      obtain ⟨_, gaveUp⟩ := (is.frank s).error ran
      refine Leads.of_error ran fun counted => ?_
      obtain rfl := gaveUp.mpr (Nat.ne_of_gt counted)
      exact ⟨_, x, s, t, .self (.basic is), ran⟩
  | pure a => exact Leads.of_ok rfl fun counted => absurd counted (Nat.lt_irrefl _)
  | outOfFuel => exact Leads.of_error rfl fun counted => absurd counted (Nat.lt_irrefl _)
  | @bind _ _ x f first second before after =>
    have lifts : GivesUpIn x s → GivesUpIn (x >>= f) s :=
      fun ⟨_, y, t, u, runs, gaveUp⟩ => ⟨_, y, t, u, .first runs second, gaveUp⟩
    cases ran : x s with
    | error abort t =>
      exact Leads.bind (Leads.of_error ran fun counted => lifts ((before s).error ran counted))
    | ok a t =>
      refine Leads.bind (Leads.of_ok ran ?_)
      -- the error was counted by the first rule or by the second one
      have split {u : Session} (later : t.syntaxErrors < u.syntaxErrors → GivesUpIn (f a) t)
          (counted : s.syntaxErrors < u.syntaxErrors) : GivesUpIn (x >>= f) s := by
        by_cases early : s.syntaxErrors < t.syntaxErrors
        · exact lifts ((before s).ok ran early)
        · obtain ⟨_, y, v, w, runs, gaveUp⟩ := later (by omega)
          exact ⟨_, y, v, w, .second first ran runs, gaveUp⟩
      exact (after a t).mono (fun _ _ => split) fun _ _ => split
  | traced rule _ inner =>
    refine traced_leads ((inner (s.entered rule)).mono (fun _ _ later counted => ?_)
      fun _ _ later counted => ?_)
    all_goals
      obtain ⟨_, y, t, u, runs, gaveUp⟩ := later counted
      exact ⟨_, y, t, u, .traced runs, gaveUp⟩
  | bounded _ inner =>
    refine (inner _ s).mono (fun _ _ later counted => ?_) fun _ _ later counted => ?_
    all_goals
      obtain ⟨_, y, t, u, runs, gaveUp⟩ := later counted
      exact ⟨_, y, t, u, .bounded runs, gaveUp⟩
  | @recovering body again inner later before _ =>
    have lifts : GivesUpIn body s → GivesUpIn (Rule.recovering body again) s :=
      fun ⟨_, y, t, u, runs, gaveUp⟩ => ⟨_, y, t, u, .attempt runs later, gaveUp⟩
    have given {t : Session} (ran : body s = .error .gaveUp t) :
        GivesUpIn (Rule.recovering body again) s :=
      lifts ⟨_, body, s, t, .self inner, ran⟩
    obtain ⟨t, ran, goes⟩ | ⟨abort, t, ran, _, goes⟩ | ⟨t, u, ran, _, _, goes⟩ | ⟨t, u, ran, _, _, goes⟩ :=
      recovering_cases body again s
    · exact Leads.of_ok goes fun counted => lifts ((before s).ok ran counted)
    · exact Leads.of_error goes fun counted => lifts ((before s).error ran counted)
    · exact Leads.of_error goes fun _ => given ran
    · unfold Leads
      split
      · exact fun _ => given ran
      · exact fun _ => given ran

end Rule

end MiniPascal
