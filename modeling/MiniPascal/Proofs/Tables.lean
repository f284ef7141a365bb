import MiniPascal.Quad
import Mathlib.Data.List.Forall2
import Mathlib.Tactic.Common

/-! # Symbol tables and quad tables as the compiler uses them

A symbol table is well formed when looking a name up gives the position of the only cell with that
name. The compiler builds its table from the empty one by appending cells for names that are new and
by changing usage and value of cells in place; both keep the table well formed. Between two
declarations a table only grows (`Extends`), so a position once found stays good.
-/

namespace MiniPascal

theorem Text.SameName.refl (name : Text) : name.SameName name := rfl

theorem Text.SameName.symm {first second : Text} (same : first.SameName second) :
    second.SameName first :=
  Eq.symm same

theorem Text.SameName.trans {first second third : Text} (left : first.SameName second)
    (right : second.SameName third) : first.SameName third :=
  Eq.trans left right

theorem getElem_of_forall₂ {α β : Type} {R : α → β → Prop} {first : List α} {second : List β}
    (both : List.Forall₂ R first second) (i : Nat) :
    (first[i]? = none ∧ second[i]? = none) ∨
      ∃ x y, first[i]? = some x ∧ second[i]? = some y ∧ R x y := by
  induction both generalizing i with
  | nil => exact .inl ⟨rfl, rfl⟩
  | cons here _ ih =>
    cases i with
    | zero => exact .inr ⟨_, _, rfl, rfl, here⟩
    | succ i => exact ih i

theorem forall₂_modify {α β : Type} {R : α → β → Prop} {f : α → α} {g : β → β} {first : List α}
    {second : List β} (both : List.Forall₂ R first second) (keeps : ∀ x y, R x y → R (f x) (g y))
    (i : Nat) : List.Forall₂ R (first.modify i f) (second.modify i g) := by
  induction both generalizing i with
  | nil => simp
  | cons here later ih =>
    cases i with
    | zero => exact .cons (keeps _ _ here) later
    | succ i => exact .cons here (ih i)

namespace SymbolTable

/-- Looking a name up gives the position of the only cell with that name, and the cells fit. -/
structure WellFormed (table : SymbolTable) : Prop where
  lookup_iff : ∀ name (i : Nat), table.lookup? name = some i ↔
    ∃ cell, table.cells[i]? = some cell ∧ cell.name.SameName name
  fits : table.size ≤ table.capacity

theorem wellFormed_empty (capacity : Nat) : (empty capacity).WellFormed :=
  ⟨fun name i => by simp [empty, lookup?], Nat.zero_le _⟩

theorem WellFormed.lookup_lt {table : SymbolTable} (wf : table.WellFormed) {name : Text} {i : Nat}
    (found : table.lookup? name = some i) : i < table.size := by
  obtain ⟨cell, here, _⟩ := (wf.lookup_iff name i).mp found
  exact (Array.getElem?_eq_some_iff.mp here).1

/-- Two names of one cell are the same name. -/
theorem WellFormed.sameName {table : SymbolTable} (wf : table.WellFormed) {first second : Text} {i : Nat}
    (found : table.lookup? first = some i) (again : table.lookup? second = some i) :
    first.SameName second := by
  obtain ⟨cell, here, same⟩ := (wf.lookup_iff first i).mp found
  obtain ⟨other, there, same'⟩ := (wf.lookup_iff second i).mp again
  rw [here] at there
  cases there
  exact same.symm.trans same'

theorem lookup_congr (table : SymbolTable) {first second : Text} (same : first.SameName second) :
    table.lookup? first = table.lookup? second := by
  unfold lookup?
  rw [show first.fold = second.fold from same]

/-- A table with one more cell, whose name is new. -/
def insert (table : SymbolTable) (cell : Cell) : SymbolTable :=
  { table with
    cells := table.cells.push cell
    index := (cell.name.fold, table.size) :: table.index }

@[simp] theorem size_insert (table : SymbolTable) (cell : Cell) :
    (table.insert cell).size = table.size + 1 := by
  simp [insert, size]

theorem lookup_insert (table : SymbolTable) (cell : Cell) (name : Text) :
    (table.insert cell).lookup? name =
      if name.SameName cell.name then some table.size else table.lookup? name := by
  unfold insert lookup?
  rw [List.lookup_cons]
  by_cases same : name.SameName cell.name
  · rw [if_pos same, beq_iff_eq.mpr same]
  · rw [if_neg same, beq_eq_false_iff_ne.mpr same]

theorem cells_insert (table : SymbolTable) (cell : Cell) (i : Nat) :
    (table.insert cell).cells[i]? = if i = table.size then some cell else table.cells[i]? := by
  unfold insert size
  rw [Array.getElem?_push]

/-- What adding a name can do. -/
theorem add_cases (table : SymbolTable) (name : Text) (usage : Usage) (value : Value) :
    (∃ i, table.lookup? name = some i ∧ table.add name usage value = (some i, table)) ∨
    (table.lookup? name = none ∧ table.size = table.capacity ∧
      table.add name usage value = (none, table)) ∨
    (table.lookup? name = none ∧ table.size ≠ table.capacity ∧
      table.add name usage value = (some table.size, table.insert ⟨name, usage, value⟩)) := by
  unfold add
  cases found : table.lookup? name with
  | some i => exact .inl ⟨i, rfl, rfl⟩
  | none =>
    by_cases full : table.size = table.capacity
    · exact .inr (.inl ⟨rfl, full, by simp [full]⟩)
    · exact .inr (.inr ⟨rfl, full, by simp [full, insert]⟩)

theorem WellFormed.insert {table : SymbolTable} (wf : table.WellFormed) {cell : Cell}
    (new : table.lookup? cell.name = none) (room : table.size ≠ table.capacity) :
    (table.insert cell).WellFormed := by
  refine ⟨fun name i => ?_, ?_⟩
  · rw [lookup_insert, cells_insert]
    by_cases last : i = table.size
    · subst last
      rw [if_pos rfl]
      constructor
      · intro found
        split at found
        · rename_i same
          exact ⟨cell, rfl, same.symm⟩
        · exact absurd (wf.lookup_lt found) (Nat.lt_irrefl _)
      · rintro ⟨other, here, same⟩
        cases here
        exact if_pos same.symm
    · rw [if_neg last, ← wf.lookup_iff]
      split
      · rename_i same
        rw [table.lookup_congr same, new]
        simp [Ne.symm last]
      · rfl
  · have fits := wf.fits
    rw [size_insert]
    change table.size + 1 ≤ table.capacity
    omega

/-- Usage and value of a cell may change in place, and nothing else. -/
theorem lookup_modify (table : SymbolTable) (i : Nat) (usage : Usage) (value : Value) (name : Text) :
    (table.modify i usage value).lookup? name = table.lookup? name := rfl

@[simp] theorem size_modify (table : SymbolTable) (i : Nat) (usage : Usage) (value : Value) :
    (table.modify i usage value).size = table.size := by
  simp [modify, size]

theorem cells_modify (table : SymbolTable) (i : Nat) (usage : Usage) (value : Value) (j : Nat) :
    (table.modify i usage value).cells[j]? =
      if i = j then (table.cells[j]?).map fun cell => { cell with usage, value }
      else table.cells[j]? := by
  unfold modify
  rw [Array.getElem?_modify]

theorem WellFormed.modify {table : SymbolTable} (wf : table.WellFormed) (i : Nat) (usage : Usage)
    (value : Value) : (table.modify i usage value).WellFormed := by
  refine ⟨fun name j => ?_, ?_⟩
  · rw [lookup_modify, wf.lookup_iff, cells_modify]
    split
    · cases table.cells[j]? <;> simp
    · rfl
  · rw [size_modify]
    exact wf.fits

/-- A table that has grown: all its cells and positions are still there. -/
structure Extends (before after : SymbolTable) : Prop where
  cells : ∀ (i : Nat) cell, before.cells[i]? = some cell → after.cells[i]? = some cell
  lookup : ∀ name i, before.lookup? name = some i → after.lookup? name = some i
  capacity : after.capacity = before.capacity

theorem Extends.refl (table : SymbolTable) : table.Extends table :=
  ⟨fun _ _ h => h, fun _ _ h => h, rfl⟩

theorem Extends.trans {first second third : SymbolTable} (left : first.Extends second)
    (right : second.Extends third) : first.Extends third :=
  ⟨fun i cell here => right.cells i cell (left.cells i cell here),
    fun name i found => right.lookup name i (left.lookup name i found),
    right.capacity.trans left.capacity⟩

theorem Extends.size_le {before after : SymbolTable} (extend : before.Extends after) :
    before.size ≤ after.size := by
  by_contra shrunk
  have last : before.size - 1 < before.cells.size := by unfold size at *; omega
  have kept := extend.cells _ _ (Array.getElem?_eq_getElem last)
  have := (Array.getElem?_eq_some_iff.mp kept).1
  unfold size at *
  omega

theorem extends_insert {table : SymbolTable} {cell : Cell} (new : table.lookup? cell.name = none) :
    table.Extends (table.insert cell) := by
  refine ⟨fun i other here => ?_, fun name i found => ?_, rfl⟩
  · have bound := (Array.getElem?_eq_some_iff.mp here).1
    rw [cells_insert, if_neg (by unfold size; omega)]
    exact here
  · rw [lookup_insert, if_neg]
    · exact found
    · intro same
      rw [table.lookup_congr same, new] at found
      cases found

/-! ## Reading cells -/

theorem exists_nat_of_cell? {table : SymbolTable} {i : Int} {cell : Cell}
    (found : table.cell? i = some cell) : ∃ n : Nat, i = n ∧ table.cells[n]? = some cell := by
  unfold cell? at found
  split at found
  · cases found
  · exact ⟨i.toNat, by omega, found⟩

theorem cell_of_some {table : SymbolTable} {i : Nat} {cell : Cell}
    (here : table.cells[i]? = some cell) : table.cell (i : Int) = .ok cell := by
  have : table.cell? (i : Int) = some cell := by
    rw [cell?, if_neg (by omega)]
    exact here
  simp [SymbolTable.cell, this]

theorem name_of_cell {table : SymbolTable} {i : Nat} {cell : Cell}
    (here : table.cells[i]? = some cell) : table.name (i : Int) = .ok cell.name := by
  rw [name, cell_of_some here]
  rfl

theorem WellFormed.lookup_of_name {table : SymbolTable} (wf : table.WellFormed) {i : Nat} {name : Text}
    (named : table.name (i : Int) = .ok name) : table.lookup? name = some i := by
  cases here : table.cells[i]? with
  | none =>
    have missing : table.cell? (i : Int) = none := by
      rw [cell?, if_neg (by omega)]
      exact here
    simp [SymbolTable.name, SymbolTable.cell, missing, Except.map] at named
  | some cell =>
    rw [name_of_cell here] at named
    cases named
    exact (wf.lookup_iff cell.name i).mpr ⟨cell, here, rfl⟩

theorem usage_of_cell {table : SymbolTable} {i : Nat} {cell : Cell}
    (here : table.cells[i]? = some cell) : table.usage (i : Int) = .ok cell.usage := by
  rw [usage, cell_of_some here]
  rfl

theorem value_of_cell {table : SymbolTable} {i : Nat} {cell : Cell}
    (here : table.cells[i]? = some cell) : table.value (i : Int) = .ok cell.value := by
  rw [SymbolTable.value, cell_of_some here]
  rfl

theorem kind_of_cell {table : SymbolTable} {i : Nat} {cell : Cell}
    (here : table.cells[i]? = some cell) : table.kind (i : Int) = .ok cell.value.kind := by
  rw [kind, cell_of_some here]
  rfl

theorem update_of_cell {table : SymbolTable} {i : Nat} {cell : Cell}
    (here : table.cells[i]? = some cell) {value : Value} (same : cell.value.kind = value.kind)
    (usage : Usage) : table.update i usage value = .ok (table.modify i usage value) := by
  have : table.cell? (i : Int) = some cell := by
    rw [cell?, if_neg (by omega)]
    exact here
  simp [update, this, same]

theorem declare_of_cell {table : SymbolTable} {i : Nat} {cell : Cell}
    (here : table.cells[i]? = some cell) (kind : Kind) :
    table.declare i kind = .ok (table.modify i .var (.zero kind)) := by
  simp [declare, cell_of_some here, Except.map]

theorem update_keeps {table changed : SymbolTable} {i : Int} {usage : Usage} {value : Value}
    (written : table.update i usage value = .ok changed) :
    changed.size = table.size ∧ changed.capacity = table.capacity := by
  unfold update at written
  split at written
  · cases written
    exact ⟨rfl, rfl⟩
  · split at written
    · cases written
      exact ⟨size_modify .., rfl⟩
    · cases written

theorem declare_keeps {table changed : SymbolTable} {i : Int} {kind : Kind}
    (written : table.declare i kind = .ok changed) :
    changed.size = table.size ∧ changed.capacity = table.capacity := by
  unfold declare at written
  cases here : table.cell i with
  | error error =>
    rw [here] at written
    cases written
  | ok cell =>
    rw [here] at written
    cases written
    exact ⟨size_modify .., rfl⟩

theorem exists_cell {table : SymbolTable} {i : Nat} (bound : i < table.size) :
    ∃ cell, table.cells[i]? = some cell :=
  ⟨_, Array.getElem?_eq_getElem bound⟩

theorem lt_size_of_cell {table : SymbolTable} {i : Nat} {cell : Cell}
    (here : table.cells[i]? = some cell) : i < table.size :=
  (Array.getElem?_eq_some_iff.mp here).1

end SymbolTable

/-! ## Quads -/

namespace Opcode

/-- Whether an operation calculates. -/
def isArithmetic : Opcode → Bool
  | div | mul | sub | add => true
  | _ => false

/-- Whether an operation is a jump that depends on a cell. -/
def isConditional : Opcode → Bool
  | jz | jp | jn | jnz | jnp | jnn => true
  | _ => false

/-- Whether an operation puts a value into the cell that its third number names. -/
def stores (op : Opcode) : Bool := op.isArithmetic || op = .mov || op = .read

end Opcode

namespace QuadTable

/-- The stored quads in order. -/
def code (table : QuadTable) : List Quad := table.quads.toList

@[simp] theorem length_code (table : QuadTable) : table.code.length = table.size := rfl

theorem code_add {table : QuadTable} (room : table.size < table.capacity) (q : Quad) :
    (table.add q).code = table.code ++ [q] := by
  rw [add, if_pos room]
  simp [code]

@[simp] theorem capacity_add (table : QuadTable) (q : Quad) :
    (table.add q).capacity = table.capacity := by
  unfold add
  split <;> rfl

theorem code_retarget (table : QuadTable) (i : Nat) (c : Int) :
    (table.retarget i c).code = table.code.modify i fun q => { q with c } := by
  rw [retarget, if_neg (by omega)]
  simp [code]

@[simp] theorem capacity_retarget (table : QuadTable) (i c : Int) :
    (table.retarget i c).capacity = table.capacity := by
  unfold retarget
  split <;> rfl

theorem get_of_code {table : QuadTable} {i : Nat} {q : Quad} (here : table.code[i]? = some q) :
    table.get (i : Int) = q := by
  rw [get, if_neg (by omega)]
  simp only [Int.toNat_natCast]
  rw [← Array.getElem?_toList]
  simp [show table.quads.toList[i]? = some q from here]

theorem next_of_room {table : QuadTable} (room : table.size < table.capacity) :
    table.next? = some table.size := by
  rw [next?, if_neg (by omega)]

theorem get_of_size_le {table : QuadTable} {i : Nat} (outside : table.size ≤ i) :
    table.get i = .missing := by
  have none : table.quads[i]? = none := Array.getElem?_eq_none outside
  rw [get, if_neg (by omega), Int.toNat_natCast, none]
  rfl

theorem target_of_room {table : QuadTable} (room : table.size < table.capacity) :
    table.target = table.size := by
  rw [target, next_of_room room]

end QuadTable

end MiniPascal
