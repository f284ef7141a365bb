import MiniPascal.Proofs.CodeNames
import MiniPascal.Proofs.Machine.StepLimit
import MiniPascal.Proofs.Places
import MiniPascal.Proofs.Simulation.CompiledMemory
import MiniPascal.Proofs.Simulation.Evaluation
import MiniPascal.Proofs.Simulation.Programs

/-! # The rounds of a `FOR`

The code of a `FOR` has three stretches: one that evaluates the start and the limit and enters the loop,
the body, and one that counts on. A machine that performs the statement leaves the first, and then in
every round the body and the third. What the counter is at the start of each round is told from the
states in between. Both expressions are evaluated before the counter is assigned, but the limit is put
away only afterwards. So the counter takes all values from the start to the limit, unless the limit is
the counter itself.
-/

namespace MiniPascal

open Syntax

/-! ## What code leaves alone -/

theorem Quad.Changes.holds {q : Quad} {before after : SymbolTable} {i : Nat} {value : Value}
    (changes : q.Changes before after) (spares : q.op.stores = true → q.c ≠ i)
    (holds : before.Holds i value) : after.Holds i value := by
  cases changes with
  | nothing => exact holds
  | value stores names here kind =>
    have other := spares stores
    exact holds.modify (by omega) _

/-- The code of a statement does not store into the temporaries before its own. -/
theorem Syntax.Stmt.Laid.spares {tokens : List Token} {table : SymbolTable} {s : Stmt}
    {lo hi base k i : Nat} {code : List Quad} (laid : s.Laid table lo hi base code)
    (drawn : s.DrawnFrom tokens) (wf : table.WellFormed)
    (words : ∀ {name}, Among tokens .identifier name → name.IsWord) (le : k ≤ lo)
    (made : table.lookup? (Rule.temporaryName k) = some i) :
    ∀ q ∈ code, q.op.stores = true → q.c ≠ i := by
  have vocabulary : Vocabulary tokens (fun _ => True)
      (fun name => name.IsWord ∨ ∃ n, lo < n ∧ name = Rule.temporaryName n) s.names lo hi :=
    ⟨fun name used => ⟨trivial, .inl (words (drawn.names name used))⟩, fun _ _ _ _ => trivial,
      ⟨trivial, trivial⟩, fun n above _ => ⟨trivial, .inr ⟨n, above, rfl⟩⟩⟩
  intro q member stores same
  obtain ⟨name, j, written, found, is⟩ := (laid.uses drawn vocabulary q member).writes stores
  obtain rfl : i = j := by omega
  have named := wf.sameName found made
  obtain word | ⟨n, above, rfl⟩ := written
  · exact not_isWord_temporary k (word.congr named)
  · have numbers := Rule.temporaryName_inj named
    omega

/-! ## Rounds -/

/-- A `FOR` statement whose code starts at the quad `base`. -/
structure ForLoop where
  base : Nat
  counter : Text
  start : Expr
  limit : Expr
  down : Bool
  body : Stmt

namespace ForLoop

def stmt (loop : ForLoop) : Stmt := .forLoop loop.counter loop.start loop.limit loop.down loop.body

/-- The first quad of the body. -/
def head (loop : ForLoop) : Nat := loop.base + loop.start.size + loop.limit.size + 4

/-- The quad behind the body, which counts on. -/
def last (loop : ForLoop) : Nat := loop.head + loop.body.size

/-- The quad behind the statement. -/
def exit (loop : ForLoop) : Nat := loop.last + 3

/-- What the counter changes by in a round. -/
def unit (loop : ForLoop) : Int := if loop.down then -1 else 1

/-- How far the counter has to go from one value to another. -/
def distance (loop : ForLoop) (a b : Int) : Int := if loop.down then a - b else b - a

/-- The values from one to another, in the order in which the counter takes them. -/
def values (loop : ForLoop) (a b : Int) : List Value :=
  (List.range (loop.distance a b + 1).toNat).map fun k : Nat => .int (.ofInt (a + k * loop.unit))

/-- Whether the limit is the counter alone. -/
def selfLimited (loop : ForLoop) : Bool := loop.limit.isVariable loop.counter

/-- The value that the counter is compared with: that of the limit, or that of the start if the limit is
the counter alone. -/
def goal (loop : ForLoop) (a b : Int64) : Int64 := if loop.selfLimited then a else b

/-- What the counter is. -/
def count (loop : ForLoop) (m : Machine) : Value := m.program.symbols.store loop.counter

/-- A machine that enters the loop goes through rounds of it, and the counter has these values when the
body starts. -/
inductive Rounds (loop : ForLoop) : List Value → Machine → Machine → Prop
  | none {m : Machine} : Rounds loop [] m m
  | more {values : List Value} {m after counted next final : Machine} (starts : m.pc = loop.head)
      (body : m.Leaves loop.head loop.last after) (counts : after.StepsIn loop.last (loop.last + 1) counted)
      (again : counted.Leaves (loop.last + 1) loop.exit next) (later : Rounds loop values next final) :
      Rounds loop (loop.count m :: values) m final

/-- A machine at the start of the statement evaluates its expressions and goes through rounds of it. -/
def Runs (loop : ForLoop) (values : List Value) (m final : Machine) : Prop :=
  ∃ first, m.Leaves loop.base loop.head first ∧ loop.Rounds values first final

/-- Whenever a machine that performs the statement starts the body, the body terminates and leaves the
counter as it was. -/
def Terminates (loop : ForLoop) (m : Machine) : Prop :=
  ∀ values next, loop.Runs values m next → next.pc = loop.head →
    ∃ after, next.Leaves loop.head loop.last after ∧ loop.count after = loop.count next

variable {loop : ForLoop} {m final other : Machine} {values values' : List Value}

theorem selfLimited_iff (loop : ForLoop) :
    loop.selfLimited = true ↔ ∃ name, loop.limit = .var name ∧ loop.counter.SameName name :=
  Expr.isVariable_iff

theorem head_ne_exit (loop : ForLoop) : loop.head ≠ loop.exit := by
  unfold exit last
  omega

theorem Rounds.append (rounds : loop.Rounds values m final) (later : loop.Rounds values' final other) :
    loop.Rounds (values ++ values') m other := by
  induction rounds with
  | none => exact later
  | more starts body counts again _ ih => exact .more starts body counts again (ih later)

theorem Rounds.reaches (rounds : loop.Rounds values m final) : m.Reaches final := by
  induction rounds with
  | none => exact .refl
  | more _ body counts again _ ih =>
    exact (body.reaches.reaches.tail counts.2).trans (again.reaches.reaches.trans ih)

theorem Runs.reaches (runs : loop.Runs values m final) : m.Reaches final := by
  obtain ⟨first, enters, rounds⟩ := runs
  exact enters.reaches.reaches.trans rounds.reaches

theorem Runs.append (runs : loop.Runs values m final) (later : loop.Rounds values' final other) :
    loop.Runs (values ++ values') m other := by
  obtain ⟨first, enters, rounds⟩ := runs
  exact ⟨first, enters, rounds.append later⟩

/-- The rounds up to the end of the statement are determined. -/
theorem Rounds.unique (rounds : loop.Rounds values m final) (ends : final.pc = loop.exit)
    (rounds' : loop.Rounds values' m other) (ends' : other.pc = loop.exit) :
    values' = values ∧ other = final := by
  induction rounds generalizing values' with
  | none =>
    cases rounds' with
    | none => exact ⟨rfl, rfl⟩
    | more starts => exact absurd (starts.symm.trans ends) loop.head_ne_exit
  | more starts body counts again _ ih =>
    cases rounds' with
    | none => exact absurd (starts.symm.trans ends') loop.head_ne_exit
    | more _ body' counts' again' later' =>
      obtain rfl := body.unique body'
      obtain rfl := counts.2.unique counts'.2
      obtain rfl := again.unique again'
      obtain ⟨rfl, rfl⟩ := ih ends later'
      exact ⟨rfl, rfl⟩

theorem Runs.unique (runs : loop.Runs values m final) (ends : final.pc = loop.exit)
    (runs' : loop.Runs values' m other) (ends' : other.pc = loop.exit) :
    values' = values ∧ other = final := by
  obtain ⟨first, enters, rounds⟩ := runs
  obtain ⟨first', enters', rounds'⟩ := runs'
  obtain rfl := enters.unique enters'
  exact rounds.unique ends rounds' ends'

/-! ## Values -/

theorem unit_cases (loop : ForLoop) :
    loop.unit = 1 ∧ (∀ a b, loop.distance a b = b - a) ∨
      loop.unit = -1 ∧ ∀ a b, loop.distance a b = a - b := by
  unfold unit distance
  cases loop.down with
  | true => exact .inr ⟨rfl, fun _ _ => rfl⟩
  | false => exact .inl ⟨rfl, fun _ _ => rfl⟩

theorem exists_unit (loop : ForLoop) : ∃ u : Int64, (u = 1 ∨ u = -1) ∧ u.toInt = loop.unit := by
  obtain ⟨unit, _⟩ | ⟨unit, _⟩ := loop.unit_cases
  · exact ⟨1, .inl rfl, unit.symm⟩
  · exact ⟨-1, .inr rfl, unit.symm⟩

theorem distance_unit (loop : ForLoop) (a b : Int) :
    loop.distance (a + loop.unit) b = loop.distance a b - 1 := by
  obtain ⟨unit, distance⟩ | ⟨unit, distance⟩ := loop.unit_cases
  all_goals
    rw [unit, distance, distance]
    omega

theorem values_of_neg {a b : Int} (past : loop.distance a b < 0) : loop.values a b = [] := by
  have none : (loop.distance a b + 1).toNat = 0 := by omega
  rw [values, none]
  rfl

theorem values_of_nonneg {a b : Int} (within : 0 ≤ loop.distance a b) :
    loop.values a b = .int (.ofInt a) :: loop.values (a + loop.unit) b := by
  have some : (loop.distance a b + 1).toNat = (loop.distance (a + loop.unit) b + 1).toNat + 1 := by
    rw [loop.distance_unit]
    omega
  rw [values, some, List.range_succ_eq_map, List.map_cons, List.map_map, values]
  congr 1
  · simp
  · apply List.map_congr_left
    intro k _
    simp only [Function.comp_apply, Nat.succ_eq_add_one, Int.natCast_add, Int.cast_ofNat_Int, Int.add_mul,
      Int.one_mul]
    congr 2
    omega

/-! ## The code of the rounds -/

/-- The cells of a loop, and the code of its rounds: `code` is that of the body. -/
structure Frame (loop : ForLoop) (S : Setting) (counter step bound distance : Nat) (code : List Quad) :
    Prop where
  wellFormed : S.table.WellFormed
  found : S.table.lookup? loop.counter = some counter
  steps : S.table.lookup? (.ofInt loop.unit) = some step
  counts : S.table.kindAt counter = some .integer
  measures : S.table.kindAt distance = some .integer
  apart : counter ≠ bound ∧ distance ≠ counter ∧ distance ≠ bound
  length : code.length = loop.body.size
  stays : ∀ q ∈ code, q.Stays loop.head loop.last
  spares : ∀ q ∈ code, q.op.stores = true → q.c ≠ bound
  has : S.Has loop.head (code ++ [⟨.add, counter, step, counter⟩,
    ⟨.sub, (span loop.down counter bound).1, (span loop.down counter bound).2, distance⟩,
    ⟨.jnn, distance, 0, loop.head⟩])

/-- A machine stands at a place, the counter is `a`, and the limit that has been put away is `b`. -/
structure Counts (S : Setting) (counter bound place : Nat) (a b : Int64) (m : Machine) : Prop where
  standing : m.At S.quads place
  alike : S.table.Alike m.program.symbols
  count : m.program.symbols.Holds counter (.int a)
  bounded : m.program.symbols.Holds bound (.int b)

variable {S : Setting} {counter step bound distance place : Nat} {code : List Quad} {a b d : Int64}

theorem Frame.count_eq (frame : loop.Frame S counter step bound distance code)
    (here : Counts S counter bound place a b m) : loop.count m = .int a :=
  here.count.store ((here.alike.lookup _).trans frame.found)

/-- The machine finds out how far the counter has to go, and jumps by the sign of that. -/
theorem Frame.measure (frame : loop.Frame S counter step bound distance code) {op : Opcode}
    {target : Nat} {rest : List Quad}
    (has : S.Has place (⟨.sub, (span loop.down counter bound).1, (span loop.down counter bound).2,
      distance⟩ :: ⟨op, distance, 0, target⟩ :: rest)) (is : op.isConditional = true)
    (here : Counts S counter bound place a b m) (far : d.toInt = loop.distance a.toInt b.toInt) :
    ∃ next, m.ReachesWithin place (place + 2) next ∧
      Counts S counter bound
        (if op.taken (loop.distance a.toInt b.toInt).sign then target else place + 2) a b next := by
  have kind : m.program.symbols.kindAt distance = some .integer := (here.alike.kindAt _).trans frame.measures
  have puts : ∃ next, m.Puts distance (.int d) next ∧ next.At S.quads (place + 1) := by
    have quad := has.head
    unfold ForLoop.distance at far
    cases down : loop.down with
    | true =>
      rw [down] at quad far
      exact here.standing.calculate .sub quad here.count here.bounded (congrArg _ far.symm) kind
    | false =>
      rw [down] at quad far
      exact here.standing.calculate .sub quad here.bounded here.count (congrArg _ far.symm) kind
  obtain ⟨middle, puts, there⟩ := puts
  obtain ⟨next, steps, there', same⟩ := there.branch has.tail.head is puts.holds (.inl rfl)
  refine ⟨next, .tail (.single ⟨?_, puts.steps⟩) ⟨?_, steps⟩, ?_, ?_, ?_, ?_⟩
  · rw [here.standing.pc]
    omega
  · rw [there.pc]
    omega
  · rw [Value.signum, far] at there'
    exact there'
  · rw [same]
    exact here.alike.trans puts.steps.program.2
  · rw [same]
    exact puts.others frame.apart.2.1 here.count
  · rw [same]
    exact puts.others frame.apart.2.2 here.bounded

/-- A machine in the body executes a quad of it. -/
theorem Frame.next_mem (frame : loop.Frame S counter step bound distance code)
    (quads : m.program.quads.code = S.quads) (inside : loop.head ≤ m.pc ∧ m.pc < loop.last) :
    m.next ∈ code := by
  have within : m.pc - loop.head < code.length := by
    rw [frame.length]
    unfold last at inside
    omega
  have quad := frame.has.left _ _ (List.getElem?_eq_getElem within)
  rw [Nat.add_sub_cancel' inside.1, ← quads] at quad
  rw [Machine.next, QuadTable.get_of_code quad]
  exact List.getElem_mem within

/-- The body ends at the quad behind it, and does not change the limit that has been put away. -/
theorem Frame.cross (frame : loop.Frame S counter step bound distance code) {after : Machine}
    (here : Counts S counter bound loop.head a b m) (body : m.Leaves loop.head loop.last after)
    (same : loop.count after = loop.count m) : Counts S counter bound loop.last a b after := by
  have kept : ∀ next, m.ReachesWithin loop.head loop.last next →
      (loop.head ≤ next.pc ∧ next.pc ≤ loop.last) ∧ next.At S.quads next.pc ∧
        next.program.symbols.Holds bound (.int b) := by
    intro next reaches
    induction reaches with
    | refl =>
      rw [here.standing.pc]
      exact ⟨⟨Nat.le_refl _, Nat.le_add_right _ _⟩, here.standing, here.bounded⟩
    | @tail before next _ steps ih =>
      obtain ⟨inside, steps⟩ := steps
      obtain ⟨_, standing, bounded⟩ := ih
      have member := frame.next_mem standing.quads inside
      have stays := frame.stays _ member
      refine ⟨?_, ⟨rfl, ?_, ?_⟩, ?_⟩
      · obtain on | ⟨jump, leads⟩ | away := steps.pc
        · omega
        · obtain ⟨target, names, lower, upper⟩ := stays.jumps jump
          omega
        · exact absurd away stays.direct
      · rw [steps.program.1]
        exact standing.quads
      · rw [steps.stepLimit]
        exact standing.free
      · exact steps.changes.holds (frame.spares _ member) bounded
  obtain ⟨inside, standing, bounded⟩ := kept after body.reaches
  have ends : after.pc = loop.last := by
    have outside := body.outside
    omega
  have alike := here.alike.trans body.reaches.reaches.program.2
  refine ⟨ends ▸ standing, alike, ?_, bounded⟩
  rw [← frame.count_eq here, ← same]
  exact frame.wellFormed.holds_store alike frame.found

/-- The counter takes its next value, and the machine goes back to the body unless that is past the
limit. -/
theorem Frame.advance (frame : loop.Frame S counter step bound distance code) {u c : Int64}
    (here : Counts S counter bound loop.last a b m) (unit : m.program.symbols.Holds step (.int u))
    (is : u.toInt = loop.unit) (on : c.toInt = a.toInt + loop.unit)
    (far : d.toInt = loop.distance c.toInt b.toInt) :
    ∃ counted next, m.StepsIn loop.last (loop.last + 1) counted ∧
      counted.Leaves (loop.last + 1) loop.exit next ∧
      Counts S counter bound (if 0 ≤ loop.distance c.toInt b.toInt then loop.head else loop.exit) c b
        next := by
  have has := frame.has.right
  rw [frame.length] at has
  change S.Has loop.last _ at has
  have kind : m.program.symbols.kindAt counter = some .integer := (here.alike.kindAt _).trans frame.counts
  have sum : Operator.add.exactly a.toInt u.toInt = .ok c.toInt := by rw [Operator.exactly, is, on]
  obtain ⟨counted, puts, there⟩ := here.standing.calculate .add has.head here.count unit sum kind
  have counts : Counts S counter bound (loop.last + 1) c b counted :=
    ⟨there, here.alike.trans puts.steps.program.2, puts.holds, puts.others frame.apart.1 here.bounded⟩
  obtain ⟨next, reaches, counts'⟩ := frame.measure has.tail rfl counts far
  have leads : (if Opcode.jnn.taken (loop.distance c.toInt b.toInt).sign then loop.head
      else loop.last + 1 + 2) =
        if 0 ≤ loop.distance c.toInt b.toInt then loop.head else loop.exit := by
    simp only [Opcode.taken, decide_eq_true_eq, Int.sign_nonneg_iff]
    rfl
  rw [leads] at counts'
  refine ⟨counted, next, ⟨?_, puts.steps⟩, ⟨reaches, ?_⟩, counts'⟩
  · rw [here.standing.pc]
    omega
  · rw [counts'.standing.pc]
    unfold exit last
    split <;> omega

section Rounds

variable {u past : Int64} {h : Machine}

/-- One round, from the start of the body. -/
theorem Frame.round (frame : loop.Frame S counter step bound distance code) (is : u.toInt = loop.unit)
    (unit : ∀ last, m.Reaches last → last.program.symbols.Holds step (.int u))
    (terminates : loop.Terminates m) (ends : past.toInt = b.toInt + loop.unit) (runs : loop.Runs values m h)
    (here : Counts S counter bound loop.head a b h) (within : 0 ≤ loop.distance a.toInt b.toInt)
    (small : loop.distance a.toInt b.toInt ≤ 9223372036854775807) :
    ∃ (c : Int64) (next : Machine), c.toInt = a.toInt + loop.unit ∧ loop.Rounds [.int a] h next ∧
      Counts S counter bound (if 0 ≤ loop.distance c.toInt b.toInt then loop.head else loop.exit) c b
        next := by
  obtain ⟨after, body, same⟩ := terminates values h runs here.standing.pc
  obtain ⟨c, on⟩ : ∃ c : Int64, c.toInt = a.toInt + loop.unit := by
    -- the next value is not past the one where the counter ends
    have := a.le_toInt
    have := a.toInt_lt
    have := past.le_toInt
    have := past.toInt_lt
    obtain ⟨unit, distance⟩ | ⟨unit, distance⟩ := loop.unit_cases
    all_goals
      rw [distance] at within
      apply exists_word <;> omega
  obtain ⟨d, far⟩ : ∃ d : Int64, d.toInt = loop.distance c.toInt b.toInt := by
    rw [on, loop.distance_unit]
    apply exists_word <;> omega
  have reaches := runs.reaches.trans body.reaches.reaches
  obtain ⟨counted, next, counts, again, there⟩ :=
    frame.advance (frame.cross here body same) (unit after reaches) is on far
  refine ⟨c, next, on, ?_, there⟩
  rw [← frame.count_eq here]
  exact .more here.standing.pc body counts again .none

/-- The rounds that are left when a machine starts the body. -/
theorem Frame.rounds (frame : loop.Frame S counter step bound distance code) (is : u.toInt = loop.unit)
    (unit : ∀ last, m.Reaches last → last.program.symbols.Holds step (.int u))
    (terminates : loop.Terminates m) (ends : past.toInt = b.toInt + loop.unit) {n : Nat}
    (small : n ≤ 9223372036854775807) (runs : loop.Runs values m h)
    (here : Counts S counter bound loop.head a b h) (left : loop.distance a.toInt b.toInt = n) :
    ∃ final, loop.Rounds (loop.values a.toInt b.toInt) h final ∧
      Counts S counter bound loop.exit past b final := by
  induction n generalizing a values h with
  | zero =>
    obtain ⟨c, next, on, round, there⟩ :=
      frame.round is unit terminates ends runs here (by omega) (by omega)
    have beyond : loop.distance c.toInt b.toInt < 0 := by
      rw [on, loop.distance_unit]
      omega
    obtain rfl : c = past := by
      apply Int64.toInt_inj.mp
      obtain ⟨_, distance⟩ | ⟨_, distance⟩ := loop.unit_cases
      all_goals
        rw [distance] at left
        omega
    rw [if_neg (by omega)] at there
    refine ⟨next, ?_, there⟩
    rw [values_of_nonneg (by omega), Int64.ofInt_toInt, ← on, values_of_neg beyond]
    exact round
  | succ n ih =>
    obtain ⟨c, next, on, round, there⟩ :=
      frame.round is unit terminates ends runs here (by omega) (by omega)
    have left' : loop.distance c.toInt b.toInt = n := by
      rw [on, loop.distance_unit]
      omega
    rw [if_pos (by omega)] at there
    obtain ⟨final, rounds, ends⟩ := ih (by omega) (runs.append round) there left'
    refine ⟨final, ?_, ends⟩
    rw [values_of_nonneg (by omega), Int64.ofInt_toInt, ← on]
    exact round.append rounds

end Rounds

/-! ## Entering the loop -/

/-- The counter is assigned the start, the limit is put away, and the body is passed over if the start is
past the limit. -/
theorem Frame.enter (frame : loop.Frame S counter step bound distance code) {i j : Nat} {rest : List Quad}
    (before : place + 4 = loop.head)
    (has : S.Has place (⟨.mov, i, 0, counter⟩ :: ⟨.mov, j, 0, bound⟩ ::
      ⟨.sub, (span loop.down counter bound).1, (span loop.down counter bound).2, distance⟩ ::
      ⟨.jn, distance, 0, loop.exit⟩ :: rest))
    (kind : S.table.kindAt bound = some .integer) (standing : m.At S.quads place)
    (alike : S.table.Alike m.program.symbols) (start : m.program.symbols.Holds i (.int a))
    (limit : ∀ assigned, m.Puts counter (.int a) assigned → assigned.program.symbols.Holds j (.int b))
    (far : d.toInt = loop.distance a.toInt b.toInt) :
    ∃ first, m.ReachesWithin place loop.head first ∧
      Counts S counter bound (if 0 ≤ loop.distance a.toInt b.toInt then loop.head else loop.exit) a b
        first := by
  obtain ⟨assigned, puts, there⟩ :=
    standing.copy has.head start ((alike.kindAt _).trans frame.counts)
  have alike' := alike.trans puts.steps.program.2
  -- the limit is read only now, when the counter has been assigned
  obtain ⟨copied, puts', there'⟩ :=
    there.copy has.tail.head (limit assigned puts) ((alike'.kindAt _).trans kind)
  have counts : Counts S counter bound (place + 1 + 1) a b copied :=
    ⟨there', alike'.trans puts'.steps.program.2, puts'.others frame.apart.1.symm puts.holds, puts'.holds⟩
  obtain ⟨first, reaches, counts'⟩ := frame.measure has.tail.tail rfl counts far
  have leads : (if Opcode.jn.taken (loop.distance a.toInt b.toInt).sign then loop.exit
      else place + 1 + 1 + 2) =
        if 0 ≤ loop.distance a.toInt b.toInt then loop.head else loop.exit := by
    simp only [Opcode.taken, decide_eq_true_eq, Int.sign_neg_iff]
    split <;> split <;> omega
  rw [leads] at counts'
  refine ⟨first, .head ⟨?_, puts.steps⟩ (.head ⟨?_, puts'.steps⟩ ?_), counts'⟩
  · rw [standing.pc]
    omega
  · rw [there.pc]
    omega
  · exact reaches.widen (by omega) (by omega)

/-- Assigning the counter changes the limit only if that is the counter. -/
theorem limit_assigned (sound : S.Sound) {lo hi j : Nat} {next : Machine}
    (laid : loop.limit.Laid S.table lo hi code j) (drawn : loop.limit.DrawnFrom S.tokens)
    (among : Among S.tokens .identifier loop.counter) (found : S.table.lookup? loop.counter = some counter)
    (limit : m.program.symbols.Holds j (.int b)) (puts : m.Puts counter (.int a) next) :
    next.program.symbols.Holds j (.int (loop.goal a b)) := by
  unfold goal
  split
  · rename_i itself
    obtain ⟨name, is, same⟩ := loop.selfLimited_iff.mp itself
    rw [is] at laid
    cases laid with
    | var found' =>
      rw [SymbolTable.lookup_congr _ same, found'] at found
      cases found
      exact puts.holds
  · rename_i other
    refine puts.others ?_ limit
    cases Setting.settled_of_laid laid (.inl drawn) with
    | word _ found' is =>
      rintro rfl
      exact other (loop.selfLimited_iff.mpr ⟨_, is, sound.wellFormed.sameName found found'⟩)
    | constant constant found' => exact sound.constant_ne_variable constant found' among found
    | temporary _ made => exact (sound.variable_ne_temporary among found made).symm

theorem frame_of_laid (sound : S.Sound) {tokens : List Token} {n hi : Nat}
    (among : Among S.tokens .identifier loop.counter) (drawn : loop.body.DrawnFrom tokens)
    (words : ∀ {name}, Among tokens .identifier name → name.IsWord)
    (found : S.table.lookup? loop.counter = some counter)
    (steps : S.table.lookup? (.ofInt loop.unit) = some step)
    (counts : S.table.kindAt counter = some .integer)
    (copied : S.table.Temporary (n + 1) .integer bound)
    (made : S.table.Result (n + 2) bound counter distance)
    (body : loop.body.Laid S.table (n + 2) hi loop.head code)
    (has : S.Has loop.head (code ++ [⟨.add, counter, step, counter⟩,
      ⟨.sub, (span loop.down counter bound).1, (span loop.down counter bound).2, distance⟩,
      ⟨.jnn, distance, 0, loop.head⟩])) : loop.Frame S counter step bound distance code := by
  obtain ⟨kind, kind', first, second, temporary⟩ := made.kinds
  rw [SymbolTable.kindAt, copied.cell] at first
  rw [counts] at second
  cases first
  cases second
  have measures : S.table.kindAt distance = some .integer := by
    rw [SymbolTable.kindAt, temporary.cell]
    rfl
  have length : code.length = loop.body.size := body.length
  have stays := body.stays
  rw [length] at stays
  have apart := sound.variable_ne_temporary among found copied.lookup
  have apart' := sound.variable_ne_temporary among found temporary.lookup
  have apart'' := sound.temporary_ne (by omega) temporary.lookup copied.lookup
  exact ⟨sound.wellFormed, found, steps, counts, measures, ⟨apart.symm, apart', apart''⟩, length,
    stays, body.spares drawn sound.wellFormed words (Nat.le_succ _) copied.lookup, has⟩

/-- A machine at the start of the statement leaves the stretch before the body. -/
theorem enters (sound : S.Sound) {tokens : List Token} {lo hi : Nat} {store : Store}
    (words : ∀ {name}, Among tokens .identifier name → name.IsWord)
    (laid : loop.stmt.Laid S.table lo hi loop.base code) (drawn : loop.stmt.DrawnFrom tokens)
    (numeric : Among S.tokens .identifier loop.counter ∧ loop.start.DrawnFrom S.tokens ∧
      loop.limit.DrawnFrom S.tokens)
    (has : S.Has loop.base code) (standing : m.At S.quads loop.base)
    (represents : S.Represents store m.program.symbols)
    (integer : (store loop.counter).kind = .integer) (start : loop.start.eval S.naming.meaning store = .ok (.int a))
    (limit : loop.limit.eval S.naming.meaning store = .ok (.int b))
    (far : d.toInt = loop.distance a.toInt (loop.goal a b).toInt) :
    ∃ counter step bound distance code first, loop.Frame S counter step bound distance code ∧
      m.Leaves loop.base loop.head first ∧
      Counts S counter bound
        (if 0 ≤ loop.distance a.toInt (loop.goal a b).toInt then loop.head else loop.exit) a (loop.goal a b)
        first := by
  obtain ⟨among, drawn₁, drawn₂⟩ := numeric
  have drawn : loop.body.DrawnFrom tokens := drawn.2.2.2
  change Stmt.Laid S.table (.forLoop loop.counter loop.start loop.limit loop.down loop.body) lo hi loop.base
    code at laid
  cases laid with
  | @forLoop _ _ _ _ _ _ middle n _ _ counter i j step bound distance kind code code' code'' found starts
      upTo steps kindAt copied made body =>
    have here : loop.base + code.length + code'.length + 4 = loop.head := by
      rw [starts.length, upTo.length]
      rfl
    have behind : loop.head + code''.length + 3 = loop.exit := by
      rw [body.length]
      rfl
    rw [here] at body has
    rw [behind] at has
    have expressions : S.Has loop.base (code ++ code') := by
      rw [← List.append_assoc] at has
      exact has.left
    obtain ⟨ready, reaches, there, represents', starting, limiting⟩ := Setting.both_evaluated sound starts upTo
      drawn₁ drawn₂ expressions standing represents start limit
    have counts := (represents.words among found).kindAt represents.alike
    rw [integer] at counts
    rw [limiting.kindAt represents'.alike] at kindAt
    cases kindAt
    have rounds := has.right.right.right
    change S.Has (loop.base + code.length + code'.length + 4) _ at rounds
    rw [here] at rounds
    have frame := frame_of_laid sound among drawn words found steps counts copied made body rounds
    have bounds : S.table.kindAt bound = some .integer := by
      rw [SymbolTable.kindAt, copied.cell]
      rfl
    obtain ⟨first, reaches', entered⟩ := frame.enter here has.right.right bounds there represents'.alike
      starting (fun _ puts => limit_assigned sound upTo drawn₂ among found limiting puts) far
    refine ⟨counter, step, bound, distance, code'', first, frame, ⟨?_, ?_⟩, entered⟩
    · exact .trans (reaches.widen (by omega) (by omega)) (reaches'.widen (by omega) (by omega))
    · rw [entered.standing.pc]
      split <;> omega

/-- A machine that has entered the loop goes through all its rounds. -/
theorem Frame.completes (frame : loop.Frame S counter step bound distance code) {u : Int64}
    (is : u.toInt = loop.unit)
    (unit : ∀ last, m.Reaches last → last.program.symbols.Holds step (.int u))
    (terminates : loop.Terminates m) {first : Machine} (enters : m.Leaves loop.base loop.head first)
    (entered : Counts S counter bound
      (if 0 ≤ loop.distance a.toInt b.toInt then loop.head else loop.exit) a b first)
    (near : loop.distance a.toInt b.toInt ≤ 9223372036854775807)
    (fits : 0 ≤ loop.distance a.toInt b.toInt → fitsWord (b.toInt + loop.unit) = true) :
    ∃ final, loop.Runs (loop.values a.toInt b.toInt) m final ∧ final.pc = loop.exit ∧
      loop.count final =
        .int (.ofInt (if 0 ≤ loop.distance a.toInt b.toInt then b.toInt + loop.unit else a.toInt)) := by
  have runs : loop.Runs [] m first := ⟨first, enters, .none⟩
  by_cases within : 0 ≤ loop.distance a.toInt b.toInt
  · rw [if_pos within] at entered
    have ends : (Int64.ofInt (b.toInt + loop.unit)).toInt = b.toInt + loop.unit :=
      word_eq_some.mp (if_pos (fits within))
    obtain ⟨n, left⟩ := Int.eq_ofNat_of_zero_le within
    obtain ⟨final, rounds, there⟩ := frame.rounds is unit terminates ends (by omega) runs entered left
    refine ⟨final, runs.append rounds, there.standing.pc, ?_⟩
    rw [if_pos within]
    exact frame.count_eq there
  · rw [if_neg within] at entered
    refine ⟨first, ?_, entered.standing.pc, ?_⟩
    · rw [values_of_neg (by omega)]
      exact runs
    · rw [if_neg within, Int64.ofInt_toInt]
      exact frame.count_eq entered

end ForLoop

/-! ## Compiled loops -/

/-- The code of a statement within an accepted program stands at its place. -/
theorem Built.stands {options : CompileOptions} {input : Input} {p : Syntax.Program} {rest : List Token}
    {t : Session} (built : Built options input p rest t) {place : Nat} {s : Stmt}
    (member : (place, s) ∈ p.body.parts 0) :
    let S := (compile options input).program.numericSetting (tokensOf (scanned options input))
    ∃ lo hi code, s.Laid S.table lo hi place code ∧ S.Has place code := by
  obtain ⟨whole, written, laid⟩ := built.code
  obtain ⟨lo, hi, before, code, after, rfl, here, inner⟩ := laid.part member
  have quads : (compile options input).program.quads.code =
      (before ++ (code ++ after)) ++ [⟨.stop, 0, 0, 0⟩] := by
    rw [built.tables]
    exact written
  refine ⟨lo, hi, code, ?_, ?_⟩
  · change Stmt.Laid (compile options input).program.symbols s lo hi place code
    rw [built.tables]
    exact inner
  · have whole : ((compile options input).program.numericSetting
        (tokensOf (scanned options input))).Has 0 ((before ++ (code ++ after)) ++ [⟨.stop, 0, 0, 0⟩]) := by
      intro n q found
      rw [Nat.zero_add, ← found, ← quads]
      rfl
    rw [here]
    exact whole.left.right.left

/-- A machine with any history is about to perform a `FOR` of an accepted program: its run has no limit on
steps and has come to the first quad of the statement. The counter is an integer, and the expressions now
have the values `a` and `b`. -/
structure ForLoop.Starts (options : CompileOptions) (input : Input) (loop : ForLoop) (m : Machine)
    (a b : Int64) : Prop where
  accepted : (compile options input).verdict = .accepted
  part : ∃ p rest, Syntax.Program.Spelled True p (tokensOf (scanned options input)) rest ∧
    (loop.base, loop.stmt) ∈ p.body.parts 0
  running : ∃ m₀, Machine.History (compile options input).program m₀ ∧ m₀.rewind.Reaches m
  place : m.pc = loop.base
  free : m.stepLimit ≤ 0
  integer : (loop.count m).kind = .integer
  start : loop.start.eval literalValue m.program.symbols.store = .ok (.int a)
  limit : loop.limit.eval literalValue m.program.symbols.store = .ok (.int b)

/-- The machine goes through the loop, and counts up to the value that the counter is compared with. -/
theorem ForLoop.Starts.completes {options : CompileOptions} {input : Input} {loop : ForLoop}
    {m : Machine} {a b : Int64} (starts : loop.Starts options input m a b)
    (near : fitsWord (loop.distance a.toInt (loop.goal a b).toInt) = true)
    (fits : 0 ≤ loop.distance a.toInt (loop.goal a b).toInt →
      fitsWord ((loop.goal a b).toInt + loop.unit) = true) (terminates : loop.Terminates m) :
    ∃ final, loop.Runs (loop.values a.toInt (loop.goal a b).toInt) m final ∧ final.pc = loop.exit ∧
      loop.count final = .int (.ofInt (if 0 ≤ loop.distance a.toInt (loop.goal a b).toInt then
        (loop.goal a b).toInt + loop.unit else a.toInt)) := by
  obtain ⟨p, rest, spelled, member⟩ := starts.part
  obtain ⟨t, built, _⟩ := (built_of_accepted starts.accepted).2 p rest spelled
  obtain ⟨lo, hi, code, laid, has⟩ := built.stands member
  have drawn := spelled.drawn.body.part member
  have numeric := And.intro (Among.numeric drawn.1 (by decide))
    (And.intro drawn.2.1.numeric drawn.2.2.1.numeric)
  obtain ⟨m₀, history, reaches⟩ := starts.running
  have quads : m.program.quads = (compile options input).program.quads :=
    reaches.program.1.trans history.executes.1
  have standing : m.At (compile options input).program.quads.code loop.base :=
    ⟨starts.place, congrArg QuadTable.code quads, starts.free⟩
  have far := word_eq_some.mp (if_pos near)
  obtain ⟨counter, step, bound, distance, code, first, frame, enters, entered⟩ :=
    ForLoop.enters numericSetting_sound isWord_of_among laid drawn numeric has standing
      (numericSetting_represents history reaches) starts.integer starts.start starts.limit far
  obtain ⟨u, one, is⟩ := loop.exists_unit
  have steps := frame.steps
  rw [← is] at steps
  have unit (last : Machine) (later : m.Reaches last) : last.program.symbols.Holds step (.int u) :=
    (numericSetting_represents history (reaches.trans later)).constants (.unit one) steps
  have upper := (Int64.ofInt (loop.distance a.toInt (loop.goal a b).toInt)).toInt_lt
  exact frame.completes is unit terminates enters entered (by omega) fits

/-- If the body terminates and leaves the counter alone, and nothing overflows, the counter takes
exactly the values from start to limit. A limit that is the counter counts as the start. -/
theorem for_counts_from_start_to_limit (options : CompileOptions) (input : Input) (loop : ForLoop)
    (m : Machine) (a b : Int64) (starts : loop.Starts options input m a b)
    (near : fitsWord (loop.distance a.toInt (loop.goal a b).toInt) = true)
    (fits : 0 ≤ loop.distance a.toInt (loop.goal a b).toInt →
      fitsWord ((loop.goal a b).toInt + loop.unit) = true) (terminates : loop.Terminates m) :
    ∃ final, loop.Runs (loop.values a.toInt (loop.goal a b).toInt) m final ∧ final.pc = loop.exit ∧
      loop.count final = .int (.ofInt (if 0 ≤ loop.distance a.toInt (loop.goal a b).toInt then
        (loop.goal a b).toInt + loop.unit else a.toInt)) ∧
      ∀ values other, loop.Runs values m other → other.pc = loop.exit →
        values = loop.values a.toInt (loop.goal a b).toInt ∧ other = final := by
  obtain ⟨final, runs, ends, counts⟩ := starts.completes near fits terminates
  exact ⟨final, runs, ends, counts, fun values other runs' ends' => runs.unique ends runs' ends'⟩

/-- A body that is a single copy terminates, and leaves the counter as it was if it copies into another
cell. -/
theorem ForLoop.terminates_of_copy {loop : ForLoop} {m : Machine} {counter i k : Nat}
    (free : m.stepLimit ≤ 0) (single : loop.body.size = 1)
    (quad : m.program.quads.code[loop.head]? = some ⟨.mov, i, 0, k⟩)
    (source : m.program.symbols.kindAt i = some .integer)
    (target : m.program.symbols.kindAt k = some .integer)
    (found : m.program.symbols.lookup? loop.counter = some counter)
    (counts : m.program.symbols.kindAt counter = some .integer) (other : k ≠ counter) :
    loop.Terminates m := by
  intro values next runs here
  obtain ⟨quads, alike⟩ := runs.reaches.program
  have unlimited : next.stepLimit ≤ 0 :=
    runs.reaches.keeps (P := fun now => now.stepLimit ≤ 0)
      (fun _ _ steps before => steps.stepLimit ▸ before) free
  have standing : next.At m.program.quads.code loop.head :=
    ⟨here, congrArg QuadTable.code quads, unlimited⟩
  rw [← alike.kindAt] at source target counts
  obtain ⟨cell, stored, kind⟩ := Option.map_eq_some_iff.mp source
  rw [← kind] at target
  obtain ⟨after, puts, there⟩ := standing.copy quad ⟨cell, stored, rfl⟩ target
  obtain ⟨own, here', _⟩ := Option.map_eq_some_iff.mp counts
  have held : next.program.symbols.Holds counter own.value := ⟨own, here', rfl⟩
  have found' := (alike.lookup _).trans found
  refine ⟨after, ⟨.single ⟨?_, puts.steps⟩, ?_⟩, ?_⟩
  · unfold last
    omega
  · rw [there.pc]
    unfold last
    omega
  · rw [count, count, held.store found', (puts.others other held).store]
    exact (puts.steps.program.2.lookup _).trans found'

/-- A loop at the start of a program, with three rounds. -/
def countToThree : ForLoop := ⟨0, "i", .literal "1", .literal "3", false, .assignment "x" (.var "i")⟩

theorem for_counts_to_three :
    let input := Input.ofString "unit p; var i, x: integer; begin for i := 1 to 3 do x := i end."
    let m := Machine.buffered (compile {} input).program []
    countToThree.Starts {} input m 1 3 ∧ countToThree.Terminates m ∧
      ∃ final, countToThree.Runs [.int 1, .int 2, .int 3] m final ∧ final.pc = 8 ∧
        countToThree.count final = .int 4 := by
  intro input m
  obtain ⟨verdict, read, quads, lookups, integer, kinds⟩ : (compile {} input).verdict.isAccepted = true ∧
      tokensOf (scanned {} input) = [⟨"unit".toList, .kwUnit⟩, ⟨"p".toList, .identifier⟩,
        ⟨[';'], .semicolon⟩, ⟨"var".toList, .kwVar⟩, ⟨"i".toList, .identifier⟩, ⟨[','], .comma⟩,
        ⟨"x".toList, .identifier⟩, ⟨[':'], .colon⟩, ⟨"integer".toList, .kwInteger⟩,
        ⟨[';'], .semicolon⟩, ⟨"begin".toList, .kwBegin⟩, ⟨"for".toList, .kwFor⟩,
        ⟨"i".toList, .identifier⟩, ⟨":=".toList, .assign⟩, ⟨"1".toList, .integerLiteral⟩,
        ⟨"to".toList, .kwTo⟩, ⟨"3".toList, .integerLiteral⟩, ⟨"do".toList, .kwDo⟩,
        ⟨"x".toList, .identifier⟩, ⟨":=".toList, .assign⟩, ⟨"i".toList, .identifier⟩,
        ⟨"end".toList, .kwEnd⟩, ⟨['.'], .period⟩] ∧
      m.program.quads.code[4]? = some ⟨.mov, 1, 0, 2⟩ ∧ m.program.symbols.lookup? "i" = some 1 ∧
      (countToThree.count m).kind = .integer ∧
      m.program.symbols.kindAt 1 = some .integer ∧ m.program.symbols.kindAt 2 = some .integer := by
    decide +kernel
  have part : ∃ p rest, Syntax.Program.Spelled True p (tokensOf (scanned {} input)) rest ∧
      (countToThree.base, countToThree.stmt) ∈ p.body.parts 0 := by
    rw [read]
    exact ⟨_, _, .intro rfl rfl rfl
      (.more rfl (.single (.more (.single rfl) rfl rfl) rfl .integer rfl) .none) rfl
      (.single (.forLoop rfl rfl rfl (.term (.factor (.number (.inl rfl)))) rfl
        (.term (.factor (.number (.inl rfl)))) rfl
        (.assignment rfl rfl (.simple (.term (.factor (.var rfl))))))) rfl rfl, List.mem_cons_self⟩
  have fresh (program : Program) :
      let m := Machine.buffered program []
      m.rewind = m ∧ m.pc = 0 ∧ m.stepLimit ≤ 0 := ⟨rfl, rfl, Int.le_refl 0⟩
  have starts : countToThree.Starts {} input m 1 3 :=
    { accepted := Verdict.eq_accepted verdict
      part
      running := ⟨m, .new _ _, (fresh _).1 ▸ .refl⟩
      place := (fresh _).2.1
      free := (fresh _).2.2
      integer
      start := congrArg Except.ok (show literalValue "1" = .int 1 by rfl)
      limit := congrArg Except.ok (show literalValue "3" = .int 3 by rfl) }
  have terminates : countToThree.Terminates m :=
    ForLoop.terminates_of_copy (fresh _).2.2 rfl quads kinds.1 kinds.2 lookups kinds.1 (by decide)
  obtain ⟨final, runs, ends, counts, _⟩ :=
    for_counts_from_start_to_limit {} input countToThree m 1 3 starts rfl (fun _ => rfl) terminates
  exact ⟨starts, terminates, final, runs, ends, counts⟩

/-- A loop that is limited by its counter, behind an assignment. -/
def countToCounter : ForLoop := ⟨1, "i", .literal "1", .var "i", false, .assignment "x" (.var "i")⟩

/-- The limit is 3 just before the statement, but the body is run only once. -/
theorem for_to_counter_runs_once :
    let input := Input.ofString "unit p; var i, x: integer; begin i := 3; for i := 1 to i do x := i end."
    ∃ m final, countToCounter.Starts {} input m 1 3 ∧ countToCounter.Terminates m ∧
      countToCounter.Runs [.int 1] m final ∧ final.pc = countToCounter.exit ∧
      countToCounter.count final = .int 2 := by
  intro input
  obtain ⟨verdict, read, assigns, copies, lookups, constant, kinds⟩ :
      (compile {} input).verdict.isAccepted = true ∧
      tokensOf (scanned {} input) = [⟨"unit".toList, .kwUnit⟩, ⟨"p".toList, .identifier⟩,
        ⟨[';'], .semicolon⟩, ⟨"var".toList, .kwVar⟩, ⟨"i".toList, .identifier⟩, ⟨[','], .comma⟩,
        ⟨"x".toList, .identifier⟩, ⟨[':'], .colon⟩, ⟨"integer".toList, .kwInteger⟩,
        ⟨[';'], .semicolon⟩, ⟨"begin".toList, .kwBegin⟩, ⟨"i".toList, .identifier⟩,
        ⟨":=".toList, .assign⟩, ⟨"3".toList, .integerLiteral⟩, ⟨[';'], .semicolon⟩,
        ⟨"for".toList, .kwFor⟩, ⟨"i".toList, .identifier⟩, ⟨":=".toList, .assign⟩,
        ⟨"1".toList, .integerLiteral⟩, ⟨"to".toList, .kwTo⟩, ⟨"i".toList, .identifier⟩,
        ⟨"do".toList, .kwDo⟩, ⟨"x".toList, .identifier⟩, ⟨":=".toList, .assign⟩,
        ⟨"i".toList, .identifier⟩, ⟨"end".toList, .kwEnd⟩, ⟨['.'], .period⟩] ∧
      (compile {} input).program.quads.code[0]? = some ⟨.mov, 3, 0, 1⟩ ∧
      (compile {} input).program.quads.code[5]? = some ⟨.mov, 1, 0, 2⟩ ∧
      (compile {} input).program.symbols.lookup? "i" = some 1 ∧
      (compile {} input).program.symbols.lookup? "3" = some 3 ∧
      (compile {} input).program.symbols.kindAt 1 = some .integer ∧
      (compile {} input).program.symbols.kindAt 2 = some .integer := by
    decide +kernel
  have part : ∃ p rest, Syntax.Program.Spelled True p (tokensOf (scanned {} input)) rest ∧
      (countToCounter.base, countToCounter.stmt) ∈ p.body.parts 0 := by
    rw [read]
    exact ⟨_, _, .intro rfl rfl rfl
      (.more rfl (.single (.more (.single rfl) rfl rfl) rfl .integer rfl) .none) rfl
      (.sequence (.single (.assignment rfl rfl (.simple (.term (.factor (.number (.inl rfl))))))) rfl
        (.forLoop rfl rfl rfl (.term (.factor (.number (.inl rfl)))) rfl (.term (.factor (.var rfl))) rfl
          (.assignment rfl rfl (.simple (.term (.factor (.var rfl))))))) rfl rfl,
      List.mem_cons_of_mem _ (List.mem_append_right _ List.mem_cons_self)⟩
  -- the assignment puts 3 into the counter
  let first := Machine.buffered (compile {} input).program []
  have fresh (program : Program) :
      let first := Machine.buffered program []
      first.rewind = first ∧ first.At program.quads.code 0 ∧ first.program = program :=
    ⟨rfl, ⟨rfl, rfl, Int.le_refl 0⟩, rfl⟩
  obtain ⟨rewound, standing, loaded⟩ := fresh (compile {} input).program
  have history : Machine.History (compile {} input).program first := .new _ _
  have three : first.program.symbols.Holds 3 (.int 3) := by
    have reaches : first.rewind.Reaches first := by rw [rewound]
    have among : Among (tokensOf (scanned {} input)) .integerLiteral "3" := by
      rw [read]
      exact ⟨⟨"3".toList, .integerLiteral⟩, by simp, rfl, rfl⟩
    exact integerLiteral_holds history reaches among constant
  have kind : first.program.symbols.kindAt 1 = some .integer := by
    rw [loaded]
    exact kinds.1
  obtain ⟨m, puts, there⟩ := standing.copy assigns three kind
  obtain ⟨quads, alike⟩ := puts.steps.program
  rw [loaded] at quads alike
  rw [← alike.kindAt, ← alike.kindAt] at kinds
  have found := (alike.lookup "i").trans lookups
  have count : countToCounter.count m = .int 3 := puts.holds.store found
  have starts : countToCounter.Starts {} input m 1 3 :=
    { accepted := Verdict.eq_accepted verdict
      part
      running := ⟨first, history, rewound ▸ .single puts.steps⟩
      place := there.pc
      free := there.free
      integer := count ▸ rfl
      start := congrArg Except.ok (show literalValue "1" = .int 1 by rfl)
      limit := congrArg Except.ok count }
  rw [← quads] at copies
  have terminates : countToCounter.Terminates m :=
    ForLoop.terminates_of_copy there.free rfl copies kinds.1 kinds.2 found kinds.1 (by decide)
  obtain ⟨final, runs, ends, counts⟩ := starts.completes rfl (fun _ => rfl) terminates
  exact ⟨m, final, starts, terminates, runs, ends, counts⟩

end MiniPascal
