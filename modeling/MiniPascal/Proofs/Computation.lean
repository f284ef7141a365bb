import MiniPascal.Compiler.Program
import MiniPascal.Machine.Execute

/-! # Reasoning about computations that may break off

Grammar rules and machine steps are computations on a state that either return a value or break
off, and leave a state behind in both cases. `Leads` says what holds of either outcome. The lemmas
take a computation apart along its structure, one sub-computation at a time, so that a property of a
rule is proved from the properties of the rules that it calls.
-/

namespace MiniPascal

variable {ε σ α β : Type}

/-- From the state `s`, a computation either returns a value and a state that are `good`, or breaks
off for a reason and in a state that are `bad`. -/
def Leads (x : EStateM ε σ α) (s : σ) (good : α → σ → Prop) (bad : ε → σ → Prop) : Prop :=
  match x s with
  | .ok a t => good a t
  | .error e t => bad e t

namespace Leads

variable {x : EStateM ε σ α} {f : α → EStateM ε σ β} {s t : σ} {a : α} {e : ε}
variable {good good' : α → σ → Prop} {bad bad' : ε → σ → Prop} {after : β → σ → Prop}

theorem ok (lead : Leads x s good bad) (returned : x s = .ok a t) : good a t := by
  simpa only [Leads, returned] using lead

theorem error (lead : Leads x s good bad) (broken : x s = .error e t) : bad e t := by
  simpa only [Leads, broken] using lead

theorem of_ok (returned : x s = .ok a t) (holds : good a t) : Leads x s good bad := by
  simpa only [Leads, returned] using holds

theorem of_error (broken : x s = .error e t) (holds : bad e t) : Leads x s good bad := by
  simpa only [Leads, broken] using holds

theorem mono (lead : Leads x s good bad) (onGood : ∀ a t, good a t → good' a t)
    (onBad : ∀ e t, bad e t → bad' e t) : Leads x s good' bad' := by
  unfold Leads at *
  split at lead
  · exact onGood _ _ lead
  · exact onBad _ _ lead

theorem and (first : Leads x s good bad) (second : Leads x s good' bad') :
    Leads x s (fun a t => good a t ∧ good' a t) (fun e t => bad e t ∧ bad' e t) := by
  unfold Leads at *
  split at first
  · rename_i returned
    rw [returned] at second
    exact ⟨first, second⟩
  · rename_i broken
    rw [broken] at second
    exact ⟨first, second⟩

theorem of_pure (holds : good a s) : Leads (pure a : EStateM ε σ α) s good bad := holds

theorem of_throw (holds : bad e s) : Leads (throw e : EStateM ε σ α) s good bad := holds

theorem bind (lead : Leads x s (fun a t => Leads (f a) t after bad) bad) :
    Leads (x >>= f) s after bad := by
  change match EStateM.bind x f s with
    | .ok b t => after b t
    | .error e t => bad e t
  unfold Leads at lead
  unfold EStateM.bind
  split at lead
  · rename_i returned
    rw [returned]
    exact lead
  · rename_i broken
    rw [broken]
    exact lead

theorem get_bind {f : σ → EStateM ε σ β} (lead : Leads (f s) s after bad) :
    Leads (get >>= f) s after bad := lead

theorem set_bind {u : σ} {f : PUnit → EStateM ε σ β} (lead : Leads (f ⟨⟩) u after bad) :
    Leads (set u >>= f) s after bad := lead

theorem modify_bind {change : σ → σ} {f : PUnit → EStateM ε σ β}
    (lead : Leads (f ⟨⟩) (change s) after bad) : Leads (modify change >>= f) s after bad := lead

theorem of_modify {change : σ → σ} {after : PUnit → σ → Prop} (holds : after ⟨⟩ (change s)) :
    Leads (modify change : EStateM ε σ PUnit) s after bad := holds

end Leads

/-! ## Recursive rules

Expressions and statements start out with fuel for more tokens than are left. -/

namespace Rule

theorem expression_eq (s : Session) : expression s = expressionWithin (s.unread.length + 2) s := by
  simp only [expression]

theorem statement_eq (s : Session) :
    statement s = traced .statement (attemptWithin (s.unread.length + 2)) s := by
  simp only [statement]

/-! ## What comes of a rule -/

variable {s t : Session}

theorem bind_of_ok {rule : Rule α} {next : α → Rule β} {a : α} (ran : rule s = .ok a t) :
    (rule >>= next) s = next a t := by
  change EStateM.bind rule next s = _
  simp only [EStateM.bind, ran]

theorem bind_of_error {rule : Rule α} {next : α → Rule β} {abort : Abort}
    (ran : rule s = .error abort t) : (rule >>= next) s = .error abort t := by
  change EStateM.bind rule next s = _
  simp only [EStateM.bind, ran]

theorem get_bind_apply (next : Session → Rule β) : (get >>= next) s = next s s := rfl

theorem ask_of_ok {read : SymbolTable → Except AccessError α} {a : α}
    (answer : read s.symbols = .ok a) : ask read s = .ok a s := by
  simp only [ask, get_bind_apply, answer]
  rfl

theorem ask_of_error {read : SymbolTable → Except AccessError α} {error : AccessError}
    (answer : read s.symbols = .error error) : ask read s = .error (.crashed error) s := by
  simp only [ask, get_bind_apply, answer]
  rfl

theorem traced_of_ok {rule : Rule α} {name : Nonterminal} {a : α}
    (ran : rule { s.note (.enter s.depth name) with depth := s.depth + 1 } = .ok a t) :
    traced name rule s =
      .ok a { t.note (.leave (t.depth - 1) name) with depth := t.depth - 1 } := by
  simp only [traced, ran]

theorem traced_of_error {rule : Rule α} {name : Nonterminal} {abort : Abort}
    (ran : rule { s.note (.enter s.depth name) with depth := s.depth + 1 } = .error abort t) :
    traced name rule s =
      .error abort { t.note (.leave (t.depth - 1) name) with depth := t.depth - 1 } := by
  simp only [traced, ran]

/-- Trying again after an error. -/
def retrying (again : Rule Unit) : Rule Unit := do
  if ← resync then again else throw .gaveUp

theorem recovering_of_ok {body again : Rule Unit} (ran : body s = .ok () t) :
    recovering body again s = .ok () t := by
  simp only [recovering, ran]

theorem recovering_of_gaveUp {body again : Rule Unit} (ran : body s = .error .gaveUp t) :
    recovering body again s = retrying again t := by
  simp only [recovering, ran, retrying]
  cases resumed : resync t with
  | ok goesOn u =>
    rw [bind_of_ok resumed]
    cases goesOn <;> rfl
  | error abort u => rw [bind_of_error resumed]

theorem recovering_of_abort {body again : Rule Unit} {abort : Abort} (ran : body s = .error abort t)
    (other : abort ≠ .gaveUp) : recovering body again s = .error abort t := by
  cases abort with
  | gaveUp => exact absurd rfl other
  | crashed | outOfFuel => simp only [recovering, ran]

/-- A compilation as one rule: it moves on to the first token, and reads a program. -/
def wholeProgram : Rule Unit := do
  advance
  program

end Rule

/-- What a compilation is made of, given what came of the rules. -/
def Compilation.ofOutcome : EStateM.Result Abort Session Unit → Compilation
  | .ok _ s | .error .gaveUp s => s.finish
  | .error (.crashed error) s => ⟨⟨s.symbols, s.quads⟩, .crashed error, s.journal⟩
  | .error .outOfFuel s => ⟨⟨s.symbols, s.quads⟩, .outOfFuel, s.journal⟩

theorem compile_eq (options : CompileOptions) (input : Input) : compile options input =
    .ofOutcome (Rule.wholeProgram (Session.start options input)) := by
  unfold compile Compilation.ofOutcome
  rfl

end MiniPascal
