import MiniPascal.Proofs.Layout
import MiniPascal.Proofs.Machine.Action

/-! # The shape of the memory

Nothing that a machine does changes what its cells are: their names, their usages and the kinds of
their values stay as the compiler left them. A value is stored after a conversion between the two
kinds of numbers, and only if its kind is then the kind of the cell.
-/

namespace MiniPascal

open Outcome

/-- What stays the same in a cell. -/
def Cell.shape (cell : Cell) : Text × Usage × Kind := (cell.name, cell.usage, cell.value.kind)

/-- Either kind of number. -/
def Kind.Numeric (kind : Kind) : Prop := kind = .integer ∨ kind = .real

theorem Value.kind_cases (value : Value) : value.kind.Numeric ∨ value.kind = .text := by
  cases value with
  | int => exact .inl (.inl rfl)
  | real => exact .inl (.inr rfl)
  | text => exact .inr rfl

theorem Kind.Numeric.ne_text {kind : Kind} (numeric : kind.Numeric) : kind ≠ .text := by
  obtain rfl | rfl := numeric <;> nofun

theorem Value.kind_zero {kind : Kind} (numeric : kind.Numeric) : (Value.zero kind).kind = kind := by
  obtain rfl | rfl := numeric <;> rfl

theorem arithmeticKind_numeric (left right : Kind) : (arithmeticKind left right).Numeric := by
  unfold arithmeticKind
  split
  · exact .inl rfl
  · exact .inr rfl

theorem arithmeticKind_comm (left right : Kind) :
    arithmeticKind left right = arithmeticKind right left := by
  unfold arithmeticKind
  exact if_congr and_comm rfl rfl

/-! ## Conversion -/

namespace Value

/-- A value that has the kind already is not converted. -/
theorem converted_of_kind {value : Value} {kind : Kind} (same : value.kind = kind) :
    value.converted kind = .ok value := by
  subst same
  cases value <;> rfl

/-- Between a number and a text nothing is converted. -/
theorem converted_of_text {value : Value} {kind : Kind}
    (text : value.kind = .text ∨ kind = .text) : value.converted kind = .ok value := by
  obtain is | rfl := text
  · cases value with
    | text => rfl
    | int | real => cases is
  · cases value <;> rfl

/-- A number is converted to the kind of number that is asked for, if the word can hold it. -/
theorem converted_numeric {value : Value} {kind : Kind} (number : value.kind.Numeric)
    (numeric : kind.Numeric) :
    (∃ result, value.converted kind = .ok result ∧ result.kind = kind) ∨
      value.converted kind = .error (.fault .overflow) := by
  cases value with
  | text => exact absurd rfl number.ne_text
  | int n =>
    obtain rfl | rfl := numeric
    · exact .inl ⟨_, rfl, rfl⟩
    · exact .inl ⟨_, rfl, rfl⟩
  | real x =>
    obtain rfl | rfl := numeric
    · unfold converted realToWord
      dsimp only
      split
      · exact .inr rfl
      · exact .inl ⟨_, rfl, rfl⟩
    · exact .inl ⟨_, rfl, rfl⟩

end Value

namespace SymbolTable

/-! ## Storing -/

variable {table after : SymbolTable} {i : Nat} {cell : Cell} {value : Value}

/-- How a value is stored in a cell that exists. -/
theorem stored_of_cell (here : table.cells[i]? = some cell) (value : Value) :
    table.stored i value = value.converted cell.value.kind >>= fun value =>
      if cell.value.kind = value.kind then .ok (table.modify i cell.usage value)
      else .error (.crash (.wrongKind i cell.value.kind value.kind)) := by
  have found : table.cell? (i : Int) = some cell := by
    rw [cell?, if_neg (by omega)]
    exact here
  unfold stored
  rw [kind_of_cell here]
  change value.converted cell.value.kind >>= _ = _
  refine bind_congr fun value => ?_
  rw [usage, cell_of_some here]
  change ofAccess (table.update i cell.usage value) = _
  rw [update, found]
  dsimp only
  split <;> rfl

theorem stored_numeric (here : table.cells[i]? = some cell) (number : value.kind.Numeric)
    (numeric : cell.value.kind.Numeric) :
    (∃ result, value.converted cell.value.kind = .ok result ∧ result.kind = cell.value.kind ∧
      table.stored i value = .ok (table.modify i cell.usage result)) ∨
    (value.converted cell.value.kind = .error (.fault .overflow) ∧
      table.stored i value = .error (.fault .overflow)) := by
  rw [stored_of_cell here]
  obtain ⟨result, converts, kind⟩ | fails := Value.converted_numeric number numeric
  · rw [converts]
    exact .inl ⟨result, rfl, kind, if_pos kind.symm⟩
  · rw [fails]
    exact .inr ⟨rfl, rfl⟩

theorem stored_same (here : table.cells[i]? = some cell) (same : value.kind = cell.value.kind) :
    table.stored i value = .ok (table.modify i cell.usage value) := by
  rw [stored_of_cell here, Value.converted_of_kind same]
  exact if_pos same.symm

/-- A number does not go into a cell for texts, nor a text into one for numbers. -/
theorem stored_mismatch (here : table.cells[i]? = some cell)
    (text : value.kind = .text ∨ cell.value.kind = .text) (other : cell.value.kind ≠ value.kind) :
    table.stored i value = .error (.crash (.wrongKind i cell.value.kind value.kind)) := by
  rw [stored_of_cell here, Value.converted_of_text text]
  exact if_neg other

/-! ## Memories of one shape -/

/-- Two memories with the same names, usages and kinds in the same places. -/
structure Alike (first second : SymbolTable) : Prop where
  lookup : ∀ name, second.lookup? name = first.lookup? name
  cells : ∀ i : Nat, (second.cells[i]?).map Cell.shape = (first.cells[i]?).map Cell.shape

namespace Alike

variable {first second third : SymbolTable}

theorem refl (table : SymbolTable) : table.Alike table := ⟨fun _ => rfl, fun _ => rfl⟩

theorem trans (left : first.Alike second) (right : second.Alike third) : first.Alike third :=
  ⟨fun name => (right.lookup name).trans (left.lookup name),
    fun i => (right.cells i).trans (left.cells i)⟩

theorem symm (alike : first.Alike second) : second.Alike first :=
  ⟨fun name => (alike.lookup name).symm, fun i => (alike.cells i).symm⟩

theorem stays (alike : first.Alike second) {i : Nat} {cell : Cell}
    (here : first.cells[i]? = some cell) :
    ∃ now, second.cells[i]? = some now ∧ now.shape = cell.shape := by
  have cells := alike.cells i
  rw [here, Option.map_some, Option.map_eq_some_iff] at cells
  exact cells

theorem kindAt (alike : first.Alike second) (i : Nat) : second.kindAt i = first.kindAt i := by
  have cells := congrArg (Option.map fun shape => shape.2.2) (alike.cells i)
  rwa [Option.map_map, Option.map_map] at cells

theorem size (alike : first.Alike second) : second.size = first.size := by
  have none (i : Nat) : second.size ≤ i ↔ first.size ≤ i := by
    have cells := congrArg Option.isNone (alike.cells i)
    rw [Option.isNone_map, Option.isNone_map] at cells
    unfold SymbolTable.size
    rw [← Array.getElem?_eq_none_iff, ← Array.getElem?_eq_none_iff, ← Option.isNone_iff_eq_none,
      ← Option.isNone_iff_eq_none, cells]
  exact Nat.le_antisymm ((none _).mpr (Nat.le_refl _)) ((none _).mp (Nat.le_refl _))

/-- A cell with another value of its kind. -/
theorem modify {table : SymbolTable} {i : Nat} {cell : Cell} (here : table.cells[i]? = some cell)
    {value : Value} (same : value.kind = cell.value.kind) :
    table.Alike (table.modify i cell.usage value) := by
  refine ⟨fun _ => rfl, fun j => ?_⟩
  rw [cells_modify]
  split
  · subst j
    rw [here]
    simp [Cell.shape, same]
  · rfl

theorem cell?_eq_none (alike : first.Alike second) {i : Int} (missing : first.cell? i = none) :
    second.cell? i = none := by
  unfold cell? at *
  split at missing
  · rw [if_pos ‹_›]
  · have shape := alike.cells i.toNat
    rw [missing] at shape
    rw [if_neg ‹_›]
    exact Option.map_eq_none_iff.mp shape

theorem name (alike : first.Alike second) (i : Int) : second.name i = first.name i := by
  unfold SymbolTable.name SymbolTable.cell
  cases found : first.cell? i with
  | none => rw [alike.cell?_eq_none found, alike.size]
  | some cell =>
    obtain ⟨n, rfl, here⟩ := exists_nat_of_cell? found
    obtain ⟨other, there, shape⟩ := alike.stays here
    have same : second.cell? (n : Int) = some other := by
      rw [cell?, if_neg (by omega)]
      exact there
    rw [same]
    exact congrArg Except.ok (congrArg Prod.fst shape)

end Alike

/-- What is stored goes into a cell that exists, after a conversion to the kind that the cell has. -/
theorem converted_of_stored {i : Int} (stores : table.stored i value = .ok after) :
    ∃ (n : Nat) (cell : Cell) (result : Value), i = n ∧ table.cells[n]? = some cell ∧
      value.converted cell.value.kind = .ok result ∧ result.kind = cell.value.kind ∧
        after = table.modify n cell.usage result := by
  cases found : table.cell? i with
  | none =>
    rw [stored, kind, SymbolTable.cell, found] at stores
    cases stores
  | some cell =>
    obtain ⟨n, rfl, here⟩ := exists_nat_of_cell? found
    rw [stored_of_cell here] at stores
    cases converts : value.converted cell.value.kind with
    | error trouble =>
      rw [converts] at stores
      cases stores
    | ok result =>
      rw [converts] at stores
      change (if cell.value.kind = result.kind then _ else _) = _ at stores
      split at stores
      · rename_i same
        cases stores
        exact ⟨n, cell, result, rfl, here, converts, same.symm, rfl⟩
      · cases stores

/-- What is stored leaves the memory in its shape. -/
theorem alike_of_stored {i : Int} (stores : table.stored i value = .ok after) :
    table.Alike after := by
  obtain ⟨n, cell, result, _, here, _, same, rfl⟩ := converted_of_stored stores
  exact .modify here same

end SymbolTable

end MiniPascal
