import MiniPascal.Proofs.Machine.Steps

/-! # Machines that do the same

Two machines may differ in what decides nothing, such as a count or what was traced. Such a difference is
given as a function from the machine to the other one, before and after a quad is fetched. If the function
goes along with all that a machine does to its surroundings, and the next quad does the same in the memories
of both, the other machine goes the same step or halts in the same way.
-/

namespace MiniPascal

/-- Two outcomes that are the same up to a relation between their results. -/
inductive Outcome.Rel {α β : Type} (R : α → β → Prop) : Outcome α → Outcome β → Prop
  | ok {a : α} {b : β} (related : R a b) : Rel R (.ok a) (.ok b)
  | error (trouble : Trouble) : Rel R (.error trouble) (.error trouble)

namespace Outcome.Rel

variable {α β γ δ : Type} {R : α → β → Prop} {S : γ → δ → Prop} {x : Outcome α} {y : Outcome β}

theorem of_ok (related : Rel R x y) {a : α} (is : x = .ok a) : ∃ b, y = .ok b ∧ R a b := by
  subst is
  cases related with
  | ok related => exact ⟨_, rfl, related⟩

theorem of_error (related : Rel R x y) {trouble : Trouble} (is : x = .error trouble) :
    y = .error trouble := by
  subst is
  cases related
  rfl

theorem refl {R : α → α → Prop} (reflexive : ∀ a, R a a) (x : Outcome α) : Rel R x x := by
  cases x with
  | ok a => exact .ok (reflexive a)
  | error trouble => exact .error trouble

theorem mono {S : α → β → Prop} (related : Rel R x y) (weaker : ∀ a b, R a b → S a b) : Rel S x y := by
  cases related with
  | ok related => exact .ok (weaker _ _ related)
  | error trouble => exact .error trouble

theorem bind {f : α → Outcome γ} {g : β → Outcome δ} (first : Rel R x y)
    (second : ∀ a b, R a b → Rel S (f a) (g b)) : Rel S (x >>= f) (y >>= g) := by
  cases first with
  | ok related => exact second _ _ related
  | error trouble => exact .error trouble

theorem bind_self (x : Outcome α) {f : α → Outcome γ} {g : α → Outcome δ}
    (second : ∀ a, Rel S (f a) (g a)) : Rel S (x >>= f) (x >>= g) := by
  cases x with
  | ok a => exact second a
  | error trouble => exact .error trouble

end Outcome.Rel

/-- Two actions that are the same, but for the memories that they write. -/
inductive Action.Rel (R : SymbolTable → SymbolTable → Prop) : Action → Action → Prop
  | write {first second : SymbolTable} (related : R first second) : Rel R (.write first) (.write second)
  | goto (target : Int) : Rel R (.goto target) (.goto target)
  | next : Rel R .next .next
  | print (value : Value) : Rel R (.print value) (.print value)
  | read (i : Int) : Rel R (.read i) (.read i)
  | stop : Rel R .stop .stop

theorem Action.Rel.refl {R : SymbolTable → SymbolTable → Prop} (reflexive : ∀ symbols, R symbols symbols)
    (action : Action) : Rel R action action := by
  cases action with
  | write symbols => exact .write (reflexive symbols)
  | goto target => exact .goto target
  | next => exact .next
  | print value => exact .print value
  | read i => exact .read i
  | stop => exact .stop

namespace Machine

theorem silent_of_intent {m : Machine} {action : Action} (does : m.intent = .ok action)
    (silent : action.stores = false) : m.next.op.stores = false := by
  rw [(Quad.does_of_action does).stores, silent]

/-- The next quads of two machines do the same, and leave memories that are related. -/
structure Concord (R : SymbolTable → SymbolTable → Prop) (m other : Machine) : Prop where
  intent : Outcome.Rel (Action.Rel R) m.intent other.intent
  keeps : m.next.op.stores = false → R m.program.symbols other.program.symbols
  names : ∀ i, other.program.symbols.name i = m.program.symbols.name i
  answers : ∀ i n, m.intent = .ok (.read i) →
    Outcome.Rel R (m.program.symbols.stored i (.int n)) (other.program.symbols.stored i (.int n))

theorem Concord.of_program {m other : Machine} (program : other.program = m.program)
    (pc : other.pc = m.pc) : Concord Eq m other where
  intent := by
    unfold Machine.intent Machine.next
    rw [program, pc]
    exact .refl (Action.Rel.refl fun _ => rfl) _
  keeps _ := by rw [program]
  names i := by rw [program]
  answers i n _ := by
    rw [program]
    exact .refl (fun _ => rfl) _

/-- A machine seen before it fetches a quad and afterwards, with nothing changed that matters to what the
machine does to its surroundings. -/
structure View (before after : Machine → Machine) : Prop where
  fetched : ∀ m, (before m).fetched = after m.fetched
  ready : ∀ m, (before m).ready = after m.ready
  traced : ∀ m label message, (after m).traced label message = after (m.traced label message)
  jump : ∀ (m : Machine) target, { after m with pc := target } = after { m with pc := target }
  written : ∀ (m : Machine) bytes, ((after m).console.write bytes).1 = (m.console.write bytes).1
  write : ∀ (m : Machine) bytes, { after m with console := ((after m).console.write bytes).2 } =
    after { m with console := (m.console.write bytes).2 }
  clear : ∀ m, (after m).console.flush.1 = m.console.flush.1
  flushed : ∀ m, (after m).flushed = after m.flushed
  asked : ∀ m prompt, (after m).asked prompt = ((m.asked prompt).1, after (m.asked prompt).2)
  fault : ∀ m cause, (after m).faultBy cause = m.faultBy cause
  memory : ∀ m symbols others, (after (m.withSymbols symbols)).withSymbols others =
    (after m).withSymbols others

namespace View

variable {before after : Machine → Machine} {m next : Machine}

theorem closing (view : View before after) (cause : Option Failure) :
    (after m).closing cause = after (m.closing cause) := by
  unfold Machine.closing
  rw [view.flushed, view.traced, view.clear]

theorem ending (view : View before after) (trouble : Trouble) :
    (after m).ending trouble = ((m.ending trouble).1, after (m.ending trouble).2) := by
  cases trouble with
  | fault cause => simp only [Machine.ending, view.fault, view.closing]
  | crash => rfl

theorem answered (view : View before after) (name : Text) :
    (before m).answered name = ((m.answered name).1, after (m.answered name).2) := by
  unfold Machine.answered
  rw [view.ready, view.flushed, view.asked]

theorem readyClear (view : View before after) :
    (before m).ready.console.flush.1 = m.ready.console.flush.1 := by
  rw [view.ready, view.clear]

variable {R : SymbolTable → SymbolTable → Prop}

/-- A step is also a step of the other machine, which may have another memory. -/
theorem steps (view : View before after) (concord : Concord R m (before m)) (steps : m.Steps next)
    (within : ¬ (before m).OverLimit) : ∃ symbols, R next.program.symbols symbols ∧
      (before m).Steps ((after next).withSymbols symbols) := by
  -- a quad that writes nothing leaves memories that are related as before
  have stays {state later : Machine} (silent : m.next.op.stores = false)
      (goes : (before m).Steps state) (same : state = after later)
      (program : state.program = (before m).program) (program' : later.program = m.program) :
      ∃ symbols, R later.program.symbols symbols ∧
        (before m).Steps ((after later).withSymbols symbols) := by
    subst same
    refine ⟨(after later).program.symbols, ?_, goes⟩
    rw [program, program']
    exact concord.keeps silent
  cases steps with
  | @write symbols _ does =>
    obtain ⟨_, does', related⟩ := concord.intent.of_ok does
    cases related with
    | @write _ others related =>
      have goes := Steps.write within does'
      rw [view.ready, ← view.memory m.ready symbols] at goes
      exact ⟨others, related, goes⟩
  | @goto target _ does =>
    obtain ⟨_, does', related⟩ := concord.intent.of_ok does
    cases related
    have jumps := view.jump m.ready target
    rw [← view.ready] at jumps
    exact stays (silent_of_intent does rfl) (.goto within does') jumps (program_ready _) (program_ready m)
  | next _ does =>
    obtain ⟨_, does', related⟩ := concord.intent.of_ok does
    cases related
    exact stays (silent_of_intent does rfl) (.next within does') (view.ready m) (program_ready _)
      (program_ready _)
  | @print value _ does shown =>
    obtain ⟨_, does', related⟩ := concord.intent.of_ok does
    cases related
    rw [← view.written, ← view.ready] at shown
    have writes := view.write m.ready value.toText.line.bytes
    rw [← view.ready] at writes
    exact stays (silent_of_intent does rfl) (.print within does' shown) writes (program_ready _)
      (program_ready m)
  | @read i name n symbols _ does clear named answers stores =>
    obtain ⟨_, does', related⟩ := concord.intent.of_ok does
    cases related
    obtain ⟨others, stores', related⟩ := (concord.answers i n does).of_ok stores
    have goes := Steps.read within does' (view.readyClear.trans clear)
      ((concord.names i).trans named) (by rw [view.answered]; exact answers) stores'
    rw [view.answered, ← view.memory _ symbols] at goes
    exact ⟨others, related, goes⟩

/-- The other machine halts in the same way. -/
theorem halts {halt : Halt} {last : Machine} (view : View before after)
    (concord : Concord R m (before m)) (halts : m.Halts halt last)
    (limit : (before m).OverLimit ↔ m.OverLimit) : (before m).Halts halt (after last) := by
  have same {action : Action} (does : m.intent = .ok action) (silent : ∀ symbols, action ≠ .write symbols) :
      (before m).intent = .ok action := by
    obtain ⟨_, does', related⟩ := concord.intent.of_ok does
    cases related with
    | write => exact absurd rfl (silent _)
    | goto | next | print | read | stop => exact does'
  cases halts with
  | limit reached =>
    have ends := Halts.limit (limit.mpr reached)
    rw [view.fetched, view.ending] at ends
    exact ends
  | stop within does =>
    have ends := Halts.stop (mt limit.mp within) (same does nofun)
    rw [view.readyClear, view.ready, view.closing] at ends
    exact ends
  | trouble within does =>
    have ends := Halts.trouble (mt limit.mp within) (concord.intent.of_error does)
    rw [view.ready, view.ending] at ends
    exact ends
  | badJump within does bad =>
    have ends := Halts.badJump (mt limit.mp within) (same does nofun) bad
    rw [view.ready, view.ending] at ends
    exact ends
  | unshown within does fails =>
    have ends := Halts.unshown (mt limit.mp within) (same does nofun)
      (by rw [view.ready, view.written]; exact fails)
    rw [view.ready, view.write, view.closing] at ends
    exact ends
  | unflushed within does fails =>
    have ends := Halts.unflushed (mt limit.mp within) (same does nofun) (view.readyClear.trans fails)
    rw [view.ready, view.flushed, view.closing] at ends
    exact ends
  | unnamed within does clear missing =>
    have ends := Halts.unnamed (mt limit.mp within) (same does nofun) (view.readyClear.trans clear)
      ((concord.names _).trans missing)
    rw [view.ready, view.flushed] at ends
    exact ends
  | unanswered within does clear named fails =>
    have ends := Halts.unanswered (mt limit.mp within) (same does nofun)
      (view.readyClear.trans clear) ((concord.names _).trans named)
      (by rw [view.answered]; exact fails)
    rw [view.answered, view.closing] at ends
    exact ends
  | unstored within does clear named answers fails =>
    have ends := Halts.unstored (mt limit.mp within) (same does nofun)
      (view.readyClear.trans clear) ((concord.names _).trans named)
      (by rw [view.answered]; exact answers) ((concord.answers _ _ does).of_error fails)
    rw [view.answered, view.ending] at ends
    exact ends

end View

end Machine

end MiniPascal
