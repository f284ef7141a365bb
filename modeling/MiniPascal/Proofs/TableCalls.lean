import MiniPascal.Proofs.Tables

/-! # Symbol tables under any calls

A symbol table keeps its cells in a row and finds them through an index of folded names. Whatever calls
are made, failing ones among them, the two agree: a name is found at the position of the only cell that has
it. A cell stays where it is and keeps its name, its kind changes only when it is declared, and a call that
does not get what it asks for leaves the table as it was.
-/

namespace MiniPascal

/-- What can be read of a cell: all of it, a part of it, or its value if that has the right kind. -/
inductive CellView where
  | cell
  | name
  | usage
  | kind
  | value
  | int
  | real
  | text

/-- A call on a symbol table. -/
inductive TableCall where
  | add (name : Text) (usage : Usage) (value : Value)
  | lookup (name : Text)
  | update (i : Int) (usage : Usage) (value : Value)
  | declare (i : Int) (kind : Kind)
  | read (view : CellView) (i : Int)

/-- The answer to a call. -/
inductive TableReply where
  | position (i : Option Nat)
  | done
  | cell (cell : Cell)
  | name (name : Text)
  | usage (usage : Usage)
  | kind (kind : Kind)
  | value (value : Value)
  | int (n : Int64)
  | real (x : Float)
  | text (t : Text)
  | failed (error : AccessError)

/-- The answer to a call that may fail. -/
def TableReply.ofAccess {α : Type} (reply : α → TableReply) : Except AccessError α → TableReply
  | .ok a => reply a
  | .error error => failed error

namespace SymbolTable

/-- Reads a cell. -/
def read (table : SymbolTable) (i : Int) : CellView → TableReply
  | .cell => .ofAccess .cell (table.cell i)
  | .name => .ofAccess .name (table.name i)
  | .usage => .ofAccess .usage (table.usage i)
  | .kind => .ofAccess .kind (table.kind i)
  | .value => .ofAccess .value (table.value i)
  | .int => .ofAccess .int (table.int i)
  | .real => .ofAccess .real (table.real i)
  | .text => .ofAccess .text (table.text i)

/-- Goes on with a changed table, or with the old one if the change fails. -/
def settle (table : SymbolTable) : Except AccessError SymbolTable → TableReply × SymbolTable
  | .ok after => (.done, after)
  | .error error => (.failed error, table)

/-- Makes a call: the answer, and the table afterwards. -/
def call (table : SymbolTable) : TableCall → TableReply × SymbolTable
  | .add name usage value => (table.add name usage value).map .position id
  | .lookup name => (.position (table.lookup? name), table)
  | .update i usage value => table.settle (table.update i usage value)
  | .declare i kind => table.settle (table.declare i kind)
  | .read view i => (table.read i view, table)

/-- The table after some calls. -/
def after (table : SymbolTable) (calls : List TableCall) : SymbolTable :=
  calls.foldl (fun table call => (table.call call).2) table

/-- Some cell has the name. -/
def Has (table : SymbolTable) (name : Text) : Prop := ∃ cell ∈ table.cells, cell.name.SameName name

variable {table : SymbolTable} {name : Text}

theorem WellFormed.has_iff (wf : table.WellFormed) : table.Has name ↔ table.lookup? name ≠ none := by
  constructor
  · rintro ⟨cell, member, same⟩
    obtain ⟨i, here⟩ := Array.mem_iff_getElem?.mp member
    rw [(wf.lookup_iff name i).mpr ⟨cell, here, same⟩]
    exact Option.some_ne_none i
  · intro present
    obtain ⟨i, found⟩ := Option.ne_none_iff_exists'.mp present
    obtain ⟨cell, here, same⟩ := (wf.lookup_iff name i).mp found
    exact ⟨cell, Array.mem_of_getElem? here, same⟩

theorem cell?_of_outside {i : Int} (outside : i < 0 ∨ table.size ≤ i) : table.cell? i = none := by
  unfold cell?
  split
  · rfl
  · apply Array.getElem?_eq_none
    unfold size at outside
    omega

/-! ## One call -/

/-- All that a call can come to. -/
inductive Answers (table : SymbolTable) : TableCall → TableReply × SymbolTable → Prop
  | present {name : Text} {usage : Usage} {value : Value} {i : Nat}
      (found : table.lookup? name = some i) :
      Answers table (.add name usage value) (.position (some i), table)
  | full {name : Text} {usage : Usage} {value : Value} (new : table.lookup? name = none)
      (taken : table.size = table.capacity) :
      Answers table (.add name usage value) (.position none, table)
  | added {name : Text} {usage : Usage} {value : Value} (new : table.lookup? name = none)
      (room : table.size ≠ table.capacity) :
      Answers table (.add name usage value)
        (.position (some table.size), table.insert ⟨name, usage, value⟩)
  | looked {name : Text} : Answers table (.lookup name) (.position (table.lookup? name), table)
  | missed {i : Int} {usage : Usage} {value : Value} (missing : table.cell? i = none) :
      Answers table (.update i usage value) (.done, table)
  | updated {i : Nat} {usage : Usage} {value : Value} {cell : Cell}
      (here : table.cells[i]? = some cell) (same : cell.value.kind = value.kind) :
      Answers table (.update i usage value) (.done, table.modify i usage value)
  | mismatched {i : Nat} {usage : Usage} {value : Value} {cell : Cell}
      (here : table.cells[i]? = some cell) (other : cell.value.kind ≠ value.kind) :
      Answers table (.update i usage value) (.failed (.wrongKind i cell.value.kind value.kind), table)
  | declared {i : Nat} {kind : Kind} {cell : Cell} (here : table.cells[i]? = some cell) :
      Answers table (.declare i kind) (.done, table.modify i .var (.zero kind))
  | undeclared {i : Int} {kind : Kind} (missing : table.cell? i = none) :
      Answers table (.declare i kind) (.failed (.noCell i table.size), table)
  | viewed {view : CellView} {i : Int} {reply : TableReply} (reads : table.read i view = reply) :
      Answers table (.read view i) (reply, table)

theorem call_answers (table : SymbolTable) (call : TableCall) :
    table.Answers call (table.call call) := by
  cases call with
  | add name usage value =>
    rw [SymbolTable.call]
    rcases table.add_cases name usage value with
      ⟨i, found, adds⟩ | ⟨new, full, adds⟩ | ⟨new, room, adds⟩
    · rw [adds]
      exact .present found
    · rw [adds]
      exact .full new full
    · rw [adds]
      exact .added new room
  | lookup name => exact .looked
  | update i usage value =>
    rw [SymbolTable.call, update]
    cases found : table.cell? i with
    | none => exact .missed found
    | some cell =>
      obtain ⟨n, rfl, here⟩ := exists_nat_of_cell? found
      by_cases same : cell.value.kind = value.kind
      · simp only [if_pos same]
        exact .updated here same
      · simp only [if_neg same]
        exact .mismatched here same
  | declare i kind =>
    rw [SymbolTable.call, declare, SymbolTable.cell]
    cases found : table.cell? i with
    | none => exact .undeclared found
    | some cell =>
      obtain ⟨n, rfl, here⟩ := exists_nat_of_cell? found
      exact .declared here
  | read view i => exact .viewed rfl

namespace Answers

variable {call : TableCall} {reply : TableReply} {next : SymbolTable}

theorem wellFormed (answers : table.Answers call (reply, next)) (wf : table.WellFormed) :
    next.WellFormed := by
  cases answers with
  | added new room => exact wf.insert new room
  | updated | declared => exact wf.modify _ _ _
  | _ => exact wf

theorem capacity (answers : table.Answers call (reply, next)) : next.capacity = table.capacity := by
  cases answers <;> rfl

/-- A cell keeps its place and its name, and its kind unless it is declared. -/
theorem keeps (answers : table.Answers call (reply, next)) {i : Nat} {cell : Cell}
    (here : table.cells[i]? = some cell) :
    ∃ kept, next.cells[i]? = some kept ∧ kept.name = cell.name ∧
      (kept.value.kind = cell.value.kind ∨ ∃ kind, call = .declare i kind) := by
  cases answers with
  | added new room =>
    exact ⟨cell, (extends_insert new).cells i cell here, rfl, .inl rfl⟩
  | @updated j usage value found there same =>
    rw [cells_modify, here]
    split
    · rename_i eq
      subst eq
      obtain rfl : found = cell := Option.some.inj (there.symm.trans here)
      exact ⟨_, rfl, rfl, .inl same.symm⟩
    · exact ⟨cell, rfl, rfl, .inl rfl⟩
  | @declared j kind found there =>
    rw [cells_modify, here]
    split
    · rename_i eq
      subst eq
      exact ⟨_, rfl, rfl, .inr ⟨kind, rfl⟩⟩
    · exact ⟨cell, rfl, rfl, .inl rfl⟩
  | _ => exact ⟨cell, here, rfl, .inl rfl⟩

/-- A call that fails changes nothing. -/
theorem failed {error : AccessError} (answers : table.Answers call (.failed error, next)) :
    next = table := by
  cases answers <;> rfl

section Add

variable {usage : Usage} {value : Value}

/-- Adding answers with the position that the name has then. -/
theorem add (answers : table.Answers (.add name usage value) (reply, next)) :
    reply = .position (next.lookup? name) := by
  cases answers with
  | present found => rw [found]
  | full new => rw [new]
  | added => rw [lookup_insert, if_pos (Text.SameName.refl name)]

theorem add_none (answers : table.Answers (.add name usage value) (reply, next)) :
    reply = .position none ↔ table.lookup? name = none ∧ table.size = table.capacity := by
  cases answers with
  | present found => simp [found]
  | full new taken => simp [new, taken]
  | added new room => simp [room]

theorem add_unchanged (answers : table.Answers (.add name usage value) (reply, next))
    (vain : table.lookup? name ≠ none ∨ table.size = table.capacity) : next = table := by
  cases answers with
  | present | full => rfl
  | added new room => exact absurd vain (not_or.mpr ⟨not_not.mpr new, room⟩)

end Add

end Answers

/-! ## Any number of calls -/

theorem wellFormed_after (wf : table.WellFormed) (calls : List TableCall) :
    (table.after calls).WellFormed := by
  induction calls generalizing table with
  | nil => exact wf
  | cons call calls ih => exact ih ((table.call_answers call).wellFormed wf)

theorem capacity_after (table : SymbolTable) (calls : List TableCall) :
    (table.after calls).capacity = table.capacity := by
  induction calls generalizing table with
  | nil => rfl
  | cons call calls ih => exact (ih _).trans (table.call_answers call).capacity

/-- A cell keeps its place and its name through all calls, and its kind unless one declares it. -/
theorem after_keeps (calls : List TableCall) {i : Nat} {cell : Cell}
    (here : table.cells[i]? = some cell) :
    ∃ kept, (table.after calls).cells[i]? = some kept ∧ kept.name = cell.name ∧
      (kept.value.kind = cell.value.kind ∨ ∃ kind, .declare i kind ∈ calls) := by
  induction calls generalizing table cell with
  | nil => exact ⟨cell, here, rfl, .inl rfl⟩
  | cons call calls ih =>
    obtain ⟨middle, there, name, kind⟩ := (table.call_answers call).keeps here
    obtain ⟨kept, found, name', kind'⟩ := ih there
    refine ⟨kept, found, name'.trans name, ?_⟩
    rcases kind' with same' | ⟨new, member⟩
    · rcases kind with same | ⟨new, rfl⟩
      · exact .inl (same'.trans same)
      · exact .inr ⟨new, List.mem_cons_self⟩
    · exact .inr ⟨new, List.mem_cons_of_mem _ member⟩

/-- No two cells of a well-formed table have the same name. -/
theorem WellFormed.distinct (wf : table.WellFormed) :
    table.cells.toList.Pairwise fun first second => ¬ first.name.SameName second.name := by
  rw [List.pairwise_iff_getElem]
  intro i j inside inside' less same
  have found (k : Nat) (bound : k < table.cells.toList.length) :
      table.lookup? table.cells.toList[k].name = some k :=
    (wf.lookup_iff _ k).mpr ⟨_, Array.getElem?_eq_getElem bound, .refl _⟩
  have both := table.lookup_congr same
  rw [found i inside, found j inside'] at both
  exact absurd (Option.some.inj both) (Nat.ne_of_lt less)

end SymbolTable

/-- What a table of some capacity is always like. -/
structure SymbolTable.Consistent (table : SymbolTable) (capacity : Nat) : Prop where
  distinct : table.cells.toList.Pairwise fun first second => ¬ first.name.SameName second.name
  fits : table.size ≤ capacity
  lookup : ∀ name i, table.lookup? name = some i ↔
    ∃ cell, table.cells[i]? = some cell ∧ cell.name.SameName name
  /-- A cell stays where it is and keeps its name, and its kind unless it is declared. -/
  keeps : ∀ later (i : Nat) cell, table.cells[i]? = some cell →
    ∃ kept, (table.after later).cells[i]? = some kept ∧ kept.name = cell.name ∧
      (kept.value.kind = cell.value.kind ∨ ∃ kind, .declare i kind ∈ later)
  refuses : ∀ name usage value, (table.call (.add name usage value)).1 = .position none ↔
    ¬ table.Has name ∧ table.size = capacity
  position : ∀ name usage value, (table.call (.add name usage value)).1 =
    .position ((table.call (.add name usage value)).2.lookup? name)
  present : ∀ name usage value, table.Has name ∨ table.size = capacity →
    (table.call (.add name usage value)).2 = table
  outside : ∀ (i : Int) usage value, i < 0 ∨ table.size ≤ i →
    table.call (.update i usage value) = (.done, table)
  failed : ∀ call error, (table.call call).1 = .failed error → (table.call call).2 = table

/-- Whatever is called on an empty table, the table is consistent. -/
theorem symbol_tables_stay_consistent (capacity : Nat) (calls : List TableCall) :
    ((SymbolTable.empty capacity).after calls).Consistent capacity := by
  have same := SymbolTable.capacity_after (SymbolTable.empty capacity) calls
  have wf := SymbolTable.wellFormed_after (SymbolTable.wellFormed_empty capacity) calls
  generalize (SymbolTable.empty capacity).after calls = table at same wf
  obtain rfl : table.capacity = capacity := same
  constructor
  · exact wf.distinct
  · exact wf.fits
  · exact wf.lookup_iff
  · intro later i cell here
    exact SymbolTable.after_keeps later here
  · intro name usage value
    rw [wf.has_iff, not_not]
    exact (table.call_answers (.add name usage value)).add_none
  · intro name usage value
    exact (table.call_answers (.add name usage value)).add
  · intro name usage value vain
    rw [wf.has_iff] at vain
    exact (table.call_answers (.add name usage value)).add_unchanged vain
  · intro i usage value outside
    rw [SymbolTable.call, SymbolTable.update, SymbolTable.cell?_of_outside outside]
    rfl
  · intro call error fails
    have answers := table.call_answers call
    rcases made : table.call call with ⟨reply, next⟩
    rw [made] at answers fails
    cases fails
    exact answers.failed

end MiniPascal
