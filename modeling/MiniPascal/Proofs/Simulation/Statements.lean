import MiniPascal.Proofs.Simulation.Expressions

/-! # Machines perform statements

A machine that stands at the code of a statement follows the statement. What a loop does again is given,
and a machine has to follow that from a step later on; by induction on the number of rounds it does.

The limit of a `FOR` is copied behind the assignment to its counter. So a loop whose limit is nothing but
the counter is limited by the value it starts with, as if the assignment stood in front of it.
-/

namespace MiniPascal

open Syntax

namespace Syntax

/-- No `FOR` has nothing but its counter for a limit, unless it also starts with nothing but the counter. -/
def Stmt.FixedLimits : Stmt → Prop
  | empty | assignment _ _ | writeln _ | readln _ => True
  | sequence first second => first.FixedLimits ∧ second.FixedLimits
  | ifThen _ body | whileLoop _ body | repeatLoop body _ => body.FixedLimits
  | ifElse _ body other => body.FixedLimits ∧ other.FixedLimits
  | forLoop counter start limit _ body =>
    (limit.isVariable counter = true → start.isVariable counter = true) ∧ body.FixedLimits

/-- A statement as it is performed: where the limit of a `FOR` is nothing but its counter, the counter is
assigned before the limit is evaluated. -/
def Stmt.performed : Stmt → Stmt
  | empty => .empty
  | sequence first second => .sequence first.performed second.performed
  | assignment target source => .assignment target source
  | ifThen test body => .ifThen test body.performed
  | ifElse test body other => .ifElse test body.performed other.performed
  | whileLoop test body => .whileLoop test body.performed
  | repeatLoop body test => .repeatLoop body.performed test
  | forLoop counter start limit down body =>
    if limit.isVariable counter = true → start.isVariable counter = true then
      .forLoop counter start limit down body.performed
    else .sequence (.assignment counter start) (.forLoop counter limit limit down body.performed)
  | writeln e => .writeln e
  | readln target => .readln target

/-- A variable has a cell and no code. -/
theorem Expr.Laid.of_isVariable {table : SymbolTable} {e : Expr} {lo hi i c : Nat} {code : List Quad}
    {name : Text} (laid : e.Laid table lo hi code i) (is : e.isVariable name = true)
    (found : table.lookup? name = some c) : hi = lo ∧ code = [] ∧ i = c := by
  obtain ⟨other, rfl, same⟩ := Expr.isVariable_iff.mp is
  cases laid with
  | var here =>
    rw [← table.lookup_congr same, found, Option.some.injEq] at here
    exact ⟨rfl, rfl, here.symm⟩

theorem Stmt.performed_of_fixedLimits {s : Stmt} (fixed : s.FixedLimits) : s.performed = s := by
  induction s with
  | empty | assignment | writeln | readln => rfl
  | sequence _ _ ih ih' => rw [performed, ih fixed.1, ih' fixed.2]
  | ifThen _ _ ih | whileLoop _ _ ih | repeatLoop _ _ ih => rw [performed, ih fixed]
  | ifElse _ _ _ ih ih' => rw [performed, ih fixed.1, ih' fixed.2]
  | forLoop _ _ _ _ _ ih => rw [performed, if_pos fixed.1, ih fixed.2]

/-- A program as it is performed. -/
def Program.performed (p : Program) : Program := { p with body := p.body.performed }

theorem Program.performed_of_fixedLimits {p : Program} (fixed : p.body.FixedLimits) : p.performed = p := by
  rw [performed, Stmt.performed_of_fixedLimits fixed]

end Syntax

namespace Setting

variable {S : Setting} {state : State} {place rounds : Nat} {m : Machine}

/-! ## Assignments -/

/-- The machine has come behind an assignment. -/
structure Assigned (S : Setting) (name : Text) (before : SymbolTable) (place : Nat)
    (state after : State) (m : Machine) : Prop where
  standing : S.Standing after place m
  assigns : S.Assigns name state before after m.program.symbols

/-- A quad whose result goes into a variable. -/
theorem assigned_of_agree (sound : S.Sound) {name : Text} {q : Quad} {x : Except Fault State}
    {f : State → Course State} {there : State → Machine → Prop} (here : S.quads[place]? = some q)
    (standing : S.Standing state place m)
    (agrees : Agree (Agree.Writes (S.Assigns name state m.program.symbols)) x
      (q.action m.program.symbols))
    (goes : ∀ after next, m.Steps next → S.Assigned name m.program.symbols (place + 1) state after next →
      S.Follows rounds m there (f after)) :
    S.Follows rounds m there (state.attempt x >>= f) := by
  apply Follows.of_agree standing sound here agrees
  rintro after _ ⟨assigns⟩ does
  obtain ⟨steps, standing'⟩ :=
    standing.write sound here does assigns.represents assigns.feed assigns.shown
  exact goes after _ steps ⟨standing', assigns⟩

/-- The machine assigns what a cell holds. -/
theorem mov_follows (sound : S.Sound) {name : Text} {i c : Nat} {value : Value}
    (here : S.quads[place]? = some ⟨.mov, i, 0, c⟩) (standing : S.Standing state place m)
    (holds : m.program.symbols.Holds i value) (among : Among S.tokens .identifier name)
    (found : S.table.lookup? name = some c) :
    S.Follows rounds m (S.Assigned name m.program.symbols (place + 1) state)
      (state.attempt (state.assign S.naming name value)) := by
  have agrees := (standing.represents.assign sound among found value).write
  have moves : Quad.action ⟨.mov, i, 0, c⟩ m.program.symbols = _ := Quad.action_of_mov rfl
  rw [holds.value] at moves
  rw [← Course.bind_goesOn (state.attempt _)]
  apply assigned_of_agree sound here standing (moves ▸ agrees)
  exact fun after next steps assigned => .step steps (.here assigned)

/-! ## Asking for an integer -/

/-- The machine asks for an integer and assigns it. -/
theorem readln_follows (sound : S.Sound) {name : Text} {c n : Nat}
    (here : S.quads[place]? = some ⟨.read, 0, 0, c⟩) (standing : S.Standing state place m)
    (among : Among S.tokens .identifier name) (found : S.table.lookup? name = some c)
    (again : Repetition → State → Course State) :
    S.Follows rounds m (S.Arrives n m.program.symbols (place + 1))
      ((Stmt.readln name).run S.naming again state) := by
  have does : m.intent = .ok (.read c) := standing.intent here
  have inside := standing.inside here
  have clear := ((standing.ready sound).steady sound).flush
  have named : m.program.symbols.name c = .ok (S.naming.spelling name) :=
    (standing.represents.alike.name c).trans (sound.names among found)
  rcases asks : state.feed.ask (Exec.prompt (S.naming.spelling name)) with ⟨shown, answer, feed⟩
  obtain ⟨answers, standing'⟩ := standing.answered sound _ asks
  have same : (m.answered (S.naming.spelling name)).2.program = m.program :=
    (m.sameState_answered _).program.trans m.program_ready
  rw [Stmt.run, State.ask, asks]
  cases answer with
  | error failure =>
    have closed := Machine.sameState_closing (m.answered (S.naming.spelling name)).2 (some failure)
    have reads := closed.quad.trans ((m.sameState_answered _).quad.trans m.quad_ready)
    rw [standing.next here] at reads
    apply Follows.ends (.refl m) inside (.unanswered standing.within does clear named answers)
    apply standing'.closing sound
    rw [Machine.runFailure_stopped]
    exact .unanswered (congrArg Quad.op reads)
  | ok integer =>
    have agrees := standing'.represents.assign sound among found (.int integer)
    rw [same] at agrees
    generalize stores : m.program.symbols.stored c (.int integer) = outcome at agrees
    dsimp only
    generalize State.assign _ _ _ _ = assigned at agrees ⊢
    cases agrees with
    | error means =>
      exact .ends (.refl m) inside (.unstored standing.within does clear named answers stores)
        (standing'.ending sound means)
    | ok assigns =>
      apply Follows.step (.read standing.within does clear named answers stores)
      refine .here ⟨⟨standing'.pc, standing'.quads, standing'.free, assigns.represents, ?_, ?_⟩, ?_⟩
      · exact assigns.shown ▸ standing'.passes
      · exact assigns.feed ▸ standing'.feed
      · exact assigns.keeps n

/-! ## Loops -/

theorem Follows.keeping {lo n exit : Nat} {before middle : SymbolTable} {course : Course State}
    (follows : S.Follows rounds m (S.Arrives n middle exit) course)
    (keeps : S.Keeps lo before middle) (le : lo ≤ n) :
    S.Follows rounds m (S.Arrives lo before exit) course :=
  follows.mono fun _ _ arrives => ⟨arrives.standing, keeps.trans (arrives.keeps.mono le)⟩

/-- The code of the rounds of a `FOR`: its body stands at `place`, its limit is in the temporary after the
`n`-th, and how far the counter has to go is in the one after that. -/
structure Counting (S : Setting) (name : Text) (down : Bool) (body : Stmt)
    (n hi place counter step bound distance : Nat) (code : List Quad) : Prop where
  among : Among S.tokens .identifier name
  drawn : body.DrawnFrom S.tokens
  found : S.table.lookup? name = some counter
  steps : S.table.lookup? (.ofInt (if down then -1 else 1)) = some step
  copied : S.table.lookup? (Rule.temporaryName (n + 1)) = some bound
  made : S.table.Result (n + 2) bound counter distance
  body : body.Laid S.table (n + 2) hi place code
  has : S.Has place (code ++ [⟨.add, counter, step, counter⟩,
    ⟨.sub, (span down counter bound).1, (span down counter bound).2, distance⟩,
    ⟨.jnn, distance, 0, place⟩])

/-- A machine that is to go through a loop again follows it from its next step on. -/
structure Repeats (S : Setting) (rounds : Nat) (again : Repetition → State → Course State) : Prop where
  statement : ∀ {s : Stmt} {lo hi base : Nat} {code : List Quad} {state : State} {m next : Machine},
    s.Laid S.table lo hi base code → s.DrawnFrom S.tokens → S.Has base code →
    m.Steps next → S.Standing state base next →
    S.Follows rounds m (S.Arrives lo next.program.symbols (base + code.length))
      (again (.statement s.performed) state)
  count : ∀ {name : Text} {limit : Value} {down : Bool} {body : Stmt}
    {n hi place counter step bound distance : Nat} {code : List Quad} {state : State}
    {m next : Machine}, S.Counting name down body n hi place counter step bound distance code →
    m.Steps next → S.Standing state (place + code.length + 1) next →
    next.program.symbols.Holds bound limit →
    S.Follows rounds m (S.Arrives n next.program.symbols (place + code.length + 3))
      (again (.count name limit down body.performed) state)

section Counting

variable {name : Text} {limit : Value} {down : Bool} {body : Stmt} {n hi : Nat}
  {counter step bound distance : Nat} {code : List Quad}

/-- The machine finds out how far the counter has to go, and jumps by the sign of that. -/
theorem Counting.distance_follows (counting : S.Counting name down body n hi place counter step bound distance code)
    (sound : S.Sound) {start target : Nat} {op : Opcode} {rest : List Quad}
    (has : S.Has start (⟨.sub, (span down counter bound).1, (span down counter bound).2, distance⟩ ::
      ⟨op, distance, 0, target⟩ :: rest)) (is : op.isConditional = true)
    (standing : S.Standing state start m) (holds : m.program.symbols.Holds bound limit) :
    S.Follows rounds m
      (fun left => S.Arrives (n + 1) m.program.symbols
        (if op.taken left.signum then target else start + 2) state)
      (state.attempt (Syntax.distance down (state.store name) limit)) := by
  have count := standing.represents.words counting.among counting.found
  have made := standing.represents.result counting.made holds count
  have measures : S.Follows rounds m (S.Yields (n + 1) m.program.symbols (start + 1) state distance)
      (state.attempt (Syntax.distance down (state.store name) limit)) := by
    cases down with
    | true =>
      rw [arithmeticKind_comm] at made
      exact operation_follows sound .sub has.head standing count holds made
    | false => exact operation_follows sound .sub has.head standing holds count made
  rw [← Course.bind_goesOn (state.attempt _)]
  apply measures.bind
  rintro left next ⟨⟨standing', keeps⟩, held⟩
  have numeric := numeric_of_result counting.made standing'.represents.alike held
  obtain ⟨last, goes, same, standing''⟩ := standing'.branch sound has.tail.head is held numeric
  rw [← same] at keeps
  exact .step goes (.here ⟨standing'', keeps⟩)

/-- The counter takes its next value. -/
theorem Counting.advance (counting : S.Counting name down body n hi place counter step bound distance code)
    (sound : S.Sound) (standing : S.Standing state (place + code.length) m) :
    Agree (Agree.Writes (S.Assigns name state m.program.symbols))
      ((advanced down (state.store name)).bind (state.assign S.naming name))
      (Quad.action ⟨.add, counter, step, counter⟩ m.program.symbols) := by
  have count := standing.represents.words counting.among counting.found
  have unit : m.program.symbols.Holds step (.int (if down then -1 else 1)) := by
    have steps := counting.steps
    cases down with
    | true => exact standing.represents.constants (.unit (.inr rfl)) steps
    | false => exact standing.represents.constants (.unit (.inl rfl)) steps
  rw [Quad.action_of_arithmetic rfl, count.value, unit.value]
  apply (apply_agrees .add _ _).bind
  rintro value _ rfl
  exact (standing.represents.assign sound counting.among counting.found value).write

/-- The machine goes through the rounds of a `FOR`, from where it finds out how far the counter has to go. -/
theorem Counting.round_follows
    (counting : S.Counting name down body n hi place counter step bound distance code) (sound : S.Sound)
    {again : Repetition → State → Course State} (repeats : S.Repeats rounds again)
    {perform : State → Course State}
    (performs : ∀ state m, S.Standing state place m →
      S.Follows rounds m (S.Arrives (n + 2) m.program.symbols (place + code.length)) (perform state))
    {start target : Nat} {op : Opcode} {rest : List Quad}
    (has : S.Has start (⟨.sub, (span down counter bound).1, (span down counter bound).2, distance⟩ ::
      ⟨op, distance, 0, target⟩ :: rest)) (is : op.isConditional = true)
    (leads : ∀ sign : Int, (if op.taken sign then target else start + 2) =
      if sign < 0 then place + code.length + 3 else place)
    (standing : S.Standing state start m) (holds : m.program.symbols.Holds bound limit) :
    S.Follows rounds m (S.Arrives n m.program.symbols (place + code.length + 3))
      (round S.naming again name limit down body.performed perform state) := by
  apply (counting.distance_follows sound has is standing holds).bind
  rintro left next ⟨standing, keeps⟩
  rw [leads] at standing
  have kept := keeps.mono (Nat.le_succ n)
  split
  · rename_i past
    rw [if_pos past] at standing
    exact .here ⟨standing, kept⟩
  · rename_i within
    rw [if_neg within] at standing
    apply (performs _ _ standing).bind
    rintro after last ⟨standing', keeps'⟩
    -- the two attempts are one quad
    have joined : (after.attempt (advanced down (after.store name)) >>= fun next =>
        after.attempt (after.assign S.naming name next) >>= fun counted =>
          again (.count name limit down body.performed) counted) =
        after.attempt ((advanced down (after.store name)).bind (after.assign S.naming name)) >>=
          fun counted => again (.count name limit down body.performed) counted := by
      cases advanced down (after.store name) <;> rfl
    rw [joined]
    apply assigned_of_agree sound counting.has.right.head standing' (counting.advance sound standing')
    rintro counted final goes ⟨standing'', assigns⟩
    have bounded : final.program.symbols.Holds bound limit := by
      apply assigns.keeps (n + 1) _ _ _ (Nat.le_refl _) counting.copied
      apply keeps' _ _ _ (Nat.le_succ _) counting.copied
      exact keeps _ _ _ (Nat.le_refl _) counting.copied holds
    apply (repeats.count counting goes standing'' bounded).keeping _ (Nat.le_refl n)
    exact kept.trans ((keeps'.mono (by omega)).trans (assigns.keeps n))

end Counting

/-! ## Variables -/

theorem Represents.eval_of_isVariable {store : Store} {symbols : SymbolTable} {name : Text} {c : Nat}
    {e : Expr} (represents : S.Represents store symbols) (among : Among S.tokens .identifier name)
    (found : S.table.lookup? name = some c) (drawn : e.DrawnFrom S.tokens)
    (is : e.isVariable name = true) : e.eval S.naming.meaning store = .ok (store name) := by
  obtain ⟨other, rfl, same⟩ := Expr.isVariable_iff.mp is
  exact congrArg Except.ok (represents.store_eq among drawn found same)

/-! ## Statements -/

/-- A machine that stands at `base` performs a statement, and comes to `exit` if the program goes on. -/
def Performs (S : Setting) (rounds : Nat) (again : Repetition → State → Course State) (s : Stmt)
    (n base exit : Nat) : Prop :=
  ∀ state m, S.Standing state base m →
    S.Follows rounds m (S.Arrives n m.program.symbols exit) (s.run S.naming again state)

section Statements

variable {again : Repetition → State → Course State} {r : Relation} {s t : Stmt}
  {lo middle hi base exit i : Nat} {code : List Quad}

theorem assignment_performs (sound : S.Sound) {name : Text} {e : Expr} {c : Nat} {rest : List Quad}
    (source : e.Laid S.table lo hi code i) (drawn : e.OperandFrom S.tokens)
    (among : Among S.tokens .identifier name) (found : S.table.lookup? name = some c)
    (has : S.Has base (code ++ ⟨.mov, i, 0, c⟩ :: rest)) :
    S.Performs rounds again (.assignment name e) lo base (base + code.length + 1) := by
  intro state m standing
  apply (operand_follows sound source drawn has.left standing).bind
  rintro value next ⟨⟨standing', keeps⟩, holds⟩
  apply (mov_follows sound has.right.head standing' holds among found).mono
  exact fun after last assigned => ⟨assigned.standing, keeps.trans (assigned.assigns.keeps _)⟩

theorem ifThen_performs (sound : S.Sound) {rest : List Quad}
    (test : r.difference.Laid S.table lo middle code i) (drawn : r.DrawnFrom S.tokens)
    (has : S.Has base (code ++ ⟨r.comparison.falseJump, i, 0, exit⟩ :: rest))
    (body : S.Performs rounds again s middle (base + code.length + 1) exit) :
    S.Performs rounds again (.ifThen r s) lo base exit := by
  intro state m standing
  apply relation_follows sound test drawn has standing
  rintro holds last next steps ⟨standing', keeps⟩
  apply Follows.step steps
  cases holds with
  | true => exact (body _ _ standing').keeping keeps test.le
  | false => exact .here ⟨standing', keeps⟩

theorem ifElse_performs (sound : S.Sound) {rest rest' : List Quad} {between place : Nat}
    (test : r.difference.Laid S.table lo middle code i) (drawn : r.DrawnFrom S.tokens)
    (has : S.Has base (code ++ ⟨r.comparison.falseJump, i, 0, (place + 1 : Nat)⟩ :: rest))
    (leaves : S.Has place (⟨.jmp, 0, 0, exit⟩ :: rest')) (le : lo ≤ between)
    (body : S.Performs rounds again s middle (base + code.length + 1) place)
    (other : S.Performs rounds again t between (place + 1) exit) :
    S.Performs rounds again (.ifElse r s t) lo base exit := by
  intro state m standing
  apply relation_follows sound test drawn has standing
  rintro holds last next steps ⟨standing', keeps⟩
  apply Follows.step steps
  cases holds with
  | true =>
    have performs := (body _ _ standing').keeping keeps test.le
    rw [← Course.bind_goesOn (ite _ _ _)]
    apply performs.bind
    rintro after final ⟨standing'', kept⟩
    obtain ⟨there, jumps, arrives, same⟩ := standing''.goto sound leaves.head rfl
    exact .step jumps (.here ⟨arrives, same ▸ kept⟩)
  | false => exact (other _ _ standing').keeping keeps le

theorem whileLoop_performs (sound : S.Sound) {rest rest' : List Quad} {place : Nat}
    (test : r.difference.Laid S.table lo middle code i) (drawn : r.DrawnFrom S.tokens)
    (has : S.Has base (code ++ ⟨r.comparison.falseJump, i, 0, exit⟩ :: rest))
    (returns : S.Has place (⟨.jmp, 0, 0, base⟩ :: rest'))
    (body : S.Performs rounds again s middle (base + code.length + 1) place)
    (repeats : ∀ {state : State} {m next : Machine}, m.Steps next → S.Standing state base next →
      S.Follows rounds m (S.Arrives lo next.program.symbols exit)
        (again (.statement (.whileLoop r s)) state)) :
    S.Performs rounds again (.whileLoop r s) lo base exit := by
  intro state m standing
  apply relation_follows sound test drawn has standing
  rintro holds last next steps ⟨standing', keeps⟩
  apply Follows.step steps
  cases holds with
  | true =>
    apply ((body _ _ standing').keeping keeps test.le).bind
    rintro after final ⟨standing'', kept⟩
    obtain ⟨start, jumps, arrives, same⟩ := standing''.goto sound returns.head rfl
    exact (repeats jumps arrives).keeping (same ▸ kept) (Nat.le_refl lo)
  | false => exact .here ⟨standing', keeps⟩

theorem repeatLoop_performs (sound : S.Sound) {rest : List Quad} {place : Nat}
    (test : r.difference.Laid S.table middle hi code i) (drawn : r.DrawnFrom S.tokens)
    (has : S.Has place (code ++ ⟨r.comparison.falseJump, i, 0, base⟩ :: rest))
    (body : S.Performs rounds again s lo base place) (le : lo ≤ middle)
    (repeats : ∀ {state : State} {m next : Machine}, m.Steps next → S.Standing state base next →
      S.Follows rounds m (S.Arrives lo next.program.symbols (place + code.length + 1))
        (again (.statement (.repeatLoop s r)) state)) :
    S.Performs rounds again (.repeatLoop s r) lo base (place + code.length + 1) := by
  intro state m standing
  apply (body _ _ standing).bind
  rintro after last ⟨standing', keeps⟩
  apply relation_follows sound test drawn has standing'
  rintro holds final next steps ⟨standing'', keeps'⟩
  have kept := keeps.trans (keeps'.mono le)
  cases holds with
  | true => exact .step steps (.here ⟨standing'', kept⟩)
  | false => exact (repeats steps standing'').keeping kept (Nat.le_refl lo)

/-- What a cell holds is copied into a temporary of the same kind. -/
theorem Standing.copy (standing : S.Standing state place m) (sound : S.Sound) {k c : Nat} {kind : Kind}
    {value : Value} (here : S.quads[place]? = some ⟨.mov, i, 0, c⟩)
    (holds : m.program.symbols.Holds i value) (kindAt : S.table.kindAt i = some kind)
    (made : S.table.Temporary k kind c) :
    ∃ next, m.Steps next ∧ S.Standing state (place + 1) next ∧ next.program.symbols.Holds c value ∧
      ∀ n < k, S.Keeps n m.program.symbols next.program.symbols := by
  have same : value.kind = (Value.zero kind).kind := by
    rw [holds.kindAt standing.represents.alike] at kindAt
    cases kindAt
    cases value <;> rfl
  obtain ⟨after, stores, represents, copied, keeps⟩ := standing.represents.temporary sound made same
  have does : Quad.action ⟨.mov, i, 0, c⟩ m.program.symbols = _ := Quad.action_of_mov rfl
  rw [holds.value] at does
  change _ = (m.program.symbols.stored c value >>= _ : Outcome Action) at does
  rw [stores] at does
  obtain ⟨steps, standing'⟩ := standing.write sound here does represents rfl rfl
  exact ⟨_, steps, standing', copied, keeps⟩

section ForLoop

variable {name : Text} {a b : Expr} {down : Bool} {kind : Kind}
  {n counter start limit step bound distance : Nat} {code' code'' rest : List Quad}

/-- The machine copies the limit of a `FOR`, which is in a cell by then, and goes through the rounds. -/
theorem limit_follows (sound : S.Sound) (repeats : S.Repeats rounds again) {y : Value}
    (kindAt : S.table.kindAt limit = some kind) (copied : S.table.Temporary (n + 1) kind bound)
    (counting : S.Counting name down s n hi (place + 3) counter step bound distance code)
    (has : S.Has place (⟨.mov, limit, 0, bound⟩ ::
      ⟨.sub, (span down counter bound).1, (span down counter bound).2, distance⟩ ::
      ⟨.jn, distance, 0, (place + 3 + code.length + 3 : Nat)⟩ :: rest))
    (body : S.Performs rounds again s.performed (n + 2) (place + 3) (place + 3 + code.length))
    (standing : S.Standing state place m) (limits : m.program.symbols.Holds limit y) :
    S.Follows rounds m (S.Arrives n m.program.symbols (place + 3 + code.length + 3))
      (round S.naming again name y down s.performed (s.performed.run S.naming again) state) := by
  obtain ⟨ready, copies, standing', bounded, kept⟩ := standing.copy sound has.head limits kindAt copied
  apply Follows.step copies
  apply (counting.round_follows sound repeats body has.tail rfl ?_ standing' bounded).keeping
  · exact kept n (Nat.lt_succ_self n)
  · exact Nat.le_refl n
  · exact fun sign => if_congr decide_eq_true_iff rfl rfl

variable (sound : S.Sound) (repeats : S.Repeats rounds again)
  (starts : a.Laid S.table lo middle code start) (upTo : b.Laid S.table middle n code' limit)
  (first : a.DrawnFrom S.tokens) (last : b.DrawnFrom S.tokens)
  (kindAt : S.table.kindAt limit = some kind) (copied : S.table.Temporary (n + 1) kind bound)
  (counting : S.Counting name down s n hi (base + code.length + code'.length + 4) counter step bound
    distance code'')
  (has : S.Has base (code ++ (code' ++ ⟨.mov, start, 0, counter⟩ :: ⟨.mov, limit, 0, bound⟩ ::
    ⟨.sub, (span down counter bound).1, (span down counter bound).2, distance⟩ ::
    ⟨.jn, distance, 0, (base + code.length + code'.length + 4 + code''.length + 3 : Nat)⟩ :: rest)))
  (body : S.Performs rounds again s.performed (n + 2) (base + code.length + code'.length + 4)
    (base + code.length + code'.length + 4 + code''.length))

include sound repeats starts upTo first last kindAt copied counting has body

/-- The limit is not the counter. -/
theorem forLoop_performs (apart : ¬ b.isVariable name = true) :
    S.Performs rounds again (.forLoop name a b down s.performed) lo base
      (base + code.length + code'.length + 4 + code''.length + 3) := by
  have le := starts.le
  have le' := upTo.le
  intro state m standing
  apply (simple_follows sound starts first has.left standing).bind
  rintro x evaluated ⟨⟨standing, keeps⟩, holds⟩
  apply (simple_follows sound upTo last has.right.left standing).bind
  rintro y evaluated' ⟨⟨standing', keeps'⟩, limits⟩
  have begins := (settled_of_laid starts (.inl first)).holds standing.represents standing'.represents
    (fun _ _ => rfl) keeps' holds
  have code := has.right.right
  apply (mov_follows sound code.head standing' begins counting.among counting.found).bind
  rintro after assigned ⟨standing'', assigns⟩
  -- the limit is read only now: it is still there, for it is not the counter
  have limits' := (settled_of_laid upTo (.inl last)).holds standing'.represents assigns.represents
    (fun other is => assigns.others other fun same => apart (Expr.isVariable_iff.mpr ⟨other, is, same⟩))
    (assigns.keeps n) limits
  apply (limit_follows sound repeats kindAt copied counting code.tail body standing'' limits').keeping
  · exact keeps.trans ((keeps'.mono le).trans (assigns.keeps lo))
  · exact Nat.le_trans le le'

/-- Start and limit are the counter, and the assignment changes nothing. -/
theorem forLoop_performs_of_start (is : a.isVariable name = true) (itself : b.isVariable name = true) :
    S.Performs rounds again (.forLoop name a b down s.performed) lo base
      (base + code.length + code'.length + 4 + code''.length + 3) := by
  obtain ⟨rfl, rfl, rfl⟩ := starts.of_isVariable is counting.found
  obtain ⟨rfl, rfl, rfl⟩ := upTo.of_isVariable itself counting.found
  intro state m standing
  have represents := standing.represents
  obtain ⟨assigned, same, _⟩ := represents.assign_same sound counting.among counting.found
  rw [Stmt.run, represents.eval_of_isVariable counting.among counting.found first is,
    represents.eval_of_isVariable counting.among counting.found last itself]
  change S.Follows rounds m _ (state.attempt (state.assign S.naming name (state.store name)) >>= _)
  have moved : S.Follows rounds m _ _ := mov_follows sound has.head standing
    (represents.words counting.among counting.found) counting.among counting.found
  rw [assigned] at moved ⊢
  cases moved with
  | goesOn reaches arrives =>
    have limits := arrives.standing.represents.words counting.among counting.found
    rw [same] at limits
    apply Follows.after_steps reaches
    apply (limit_follows sound repeats kindAt copied counting has.tail body arrives.standing limits).keeping
    · exact arrives.assigns.keeps _
    · exact Nat.le_refl _

/-- The limit is the counter, which has been assigned when the limit is read. -/
theorem assigned_forLoop_performs (itself : b.isVariable name = true) :
    S.Performs rounds again
      (.sequence (.assignment name a) (.forLoop name b b down s.performed)) lo base
      (base + code.length + code'.length + 4 + code''.length + 3) := by
  have le := starts.le
  obtain ⟨rfl, rfl, rfl⟩ := upTo.of_isVariable itself counting.found
  intro state m standing
  apply (assignment_performs sound starts (.inl first) counting.among counting.found has _ _ standing).bind
  rintro after next ⟨standing', keeps⟩
  have represents := standing'.represents
  obtain ⟨assigned, _, represents'⟩ := represents.assign_same sound counting.among counting.found
  rw [Stmt.run, represents.eval_of_isVariable counting.among counting.found last itself]
  change S.Follows rounds next _ (after.attempt (after.assign S.naming name (after.store name)) >>= _)
  rw [assigned]
  have limits := represents.words counting.among counting.found
  have standing'' : S.Standing { after with store := after.store.set name (after.store name) } _ next :=
    ⟨standing'.pc, standing'.quads, standing'.free, represents', standing'.passes, standing'.feed⟩
  exact (limit_follows sound repeats kindAt copied counting has.right.tail body standing'' limits).keeping
    keeps le

end ForLoop

end Statements

/-- The machine performs a statement, if it follows what loops do again. -/
theorem statement_follows (sound : S.Sound) {again : Repetition → State → Course State}
    (repeats : S.Repeats rounds again) {s : Stmt} {lo hi base : Nat} {code : List Quad}
    (laid : s.Laid S.table lo hi base code) (drawn : s.DrawnFrom S.tokens) (has : S.Has base code) :
    S.Performs rounds again s.performed lo base (base + code.length) := by
  have whole := laid
  induction laid with
  | empty => exact fun state m standing => .here ⟨standing, .refl _ _⟩
  | sequence first second ih ih' =>
    intro state m standing
    rw [List.length_append, ← Nat.add_assoc]
    apply (ih drawn.1 has.left first state m standing).bind
    rintro after next ⟨standing', keeps⟩
    exact (ih' drawn.2 has.right second _ _ standing').keeping keeps first.le
  | assignment found source =>
    rw [List.length_append, ← Nat.add_assoc]
    exact assignment_performs sound source drawn.2 drawn.1 found has
  | @ifThen r s lo middle hi base i code code' test body ih =>
    have exit (q : Quad) : base + (code ++ q :: code').length = base + code.length + 1 + code'.length := by
      rw [List.length_append, List.length_cons]
      omega
    rw [exit]
    exact ifThen_performs sound test drawn.1 has (ih drawn.2 has.right.tail body)
  | @ifElse r s t lo middle between hi base i code code' code'' test body other ih ih' =>
    have exit (q q' : Quad) : base + (code ++ q :: (code' ++ q' :: code'')).length =
        base + code.length + 1 + code'.length + 1 + code''.length := by
      simp only [List.length_append, List.length_cons]
      omega
    rw [exit]
    exact ifElse_performs sound test drawn.1 has has.right.tail.right (Nat.le_trans test.le body.le)
      (ih drawn.2.1 has.right.tail.left body) (ih' drawn.2.2 has.right.tail.right.tail other)
  | @whileLoop r s lo middle hi base i code code' test body ih =>
    have exit (q q' : Quad) : base + (code ++ q :: (code' ++ [q'])).length =
        base + code.length + 1 + code'.length + 1 := by
      simp only [List.length_append, List.length_cons, List.length_nil]
      omega
    have loops {state : State} {m next : Machine} (steps : m.Steps next)
        (standing : S.Standing state base next) := repeats.statement whole drawn has steps standing
    rw [exit] at loops ⊢
    exact whileLoop_performs sound test drawn.1 has has.right.tail.right
      (ih drawn.2 has.right.tail.left body) loops
  | @repeatLoop r s lo middle hi base i code code' body test ih =>
    have exit (q : Quad) : base + (code ++ (code' ++ [q])).length =
        base + code.length + code'.length + 1 := by
      simp only [List.length_append, List.length_cons, List.length_nil]
      omega
    have loops {state : State} {m next : Machine} (steps : m.Steps next)
        (standing : S.Standing state base next) := repeats.statement whole drawn has steps standing
    rw [exit] at loops ⊢
    exact repeatLoop_performs sound test drawn.2 has.right (ih drawn.1 has.left body) body.le loops
  | @forLoop name a b down s lo middle n hi base counter start limit step bound distance kind code code'
      code'' found starts upTo steps kindAt copied made body ih =>
    have exit (p p' q q' r r' r'' : Quad) :
        base + (code ++ (code' ++ ([p, p', q, q'] ++ (code'' ++ [r, r', r''])))).length =
          base + code.length + code'.length + 4 + code''.length + 3 := by
      simp only [List.length_append, List.length_cons, List.length_nil]
      omega
    rw [exit]
    have rest := has.right.right.right
    have counting : S.Counting name down s n hi _ counter step bound distance code'' :=
      ⟨drawn.1, drawn.2.2.2, found, steps, copied.lookup, made, body, rest⟩
    have performs := ih drawn.2.2.2 rest.left body
    rw [Stmt.performed]
    split
    · rename_i fixed
      by_cases itself : b.isVariable name = true
      · exact forLoop_performs_of_start sound repeats starts upTo drawn.2.1 drawn.2.2.1 kindAt copied
          counting has performs (fixed itself) itself
      · exact forLoop_performs sound repeats starts upTo drawn.2.1 drawn.2.2.1 kindAt copied counting has
          performs itself
    · rename_i loose
      exact assigned_forLoop_performs sound repeats starts upTo drawn.2.1 drawn.2.2.1 kindAt copied counting
        has performs (Classical.not_imp.mp loose).1
  | writeln value =>
    intro state m standing
    rw [List.length_append, ← Nat.add_assoc]
    apply (operand_follows sound value drawn has.left standing).bind
    rintro x next ⟨⟨standing', keeps⟩, holds⟩
    obtain ⟨last, steps, standing'', same⟩ := standing'.print sound has.right.head holds
    exact .step steps (.here ⟨standing'', same ▸ keeps⟩)
  | readln found =>
    exact fun state m standing => readln_follows sound has.head standing drawn found again

/-- Every round of a loop takes a step at least. -/
theorem repeats_run (sound : S.Sound) (rounds : Nat) :
    S.Repeats rounds (Repetition.run S.naming rounds) := by
  induction rounds with
  | zero =>
    constructor
    · intros
      exact .unfinished (Nat.zero_le 0) (.refl _)
    · intros
      exact .unfinished (Nat.zero_le 0) (.refl _)
  | succ rounds ih =>
    constructor
    · intro s lo hi base code state m next laid drawn has steps standing
      exact .after_step steps (statement_follows sound ih laid drawn has _ _ standing)
    · intro name limit down body n hi place counter step bound distance code state m next counting steps
        standing holds
      have performs := statement_follows sound ih counting.body counting.drawn counting.has.left
      have leads (sign : Int) : (if Opcode.jnn.taken sign then place else place + code.length + 1 + 2) =
          if sign < 0 then place + code.length + 3 else place := by
        simp only [Opcode.taken, decide_eq_true_eq, Nat.add_assoc]
        split <;> split <;> omega
      exact .after_step steps (counting.round_follows sound ih performs counting.has.right.tail rfl leads
        standing holds)

end Setting

end MiniPascal
