import MiniPascal.Proofs.Lexing.ReservedWords

/-! # Looking names and codes up in a table of names

A table takes in the rows it is given until it is full, and its index holds the first row of every name. So
whatever rows are added, with names and codes that repeat and more of them than fit, a name is looked up as
if the stored rows were read from the first one on, and a code as if they were read from the last one back.
-/

namespace MiniPascal

namespace NameTable

variable {κ : Type}

/-- A row that finds no room changes nothing. -/
theorem add_of_full {table : NameTable κ} (full : table.next? = none) (name : Text) (code : κ) :
    table.add name code = table := by
  unfold next? at full
  split at full
  · rename_i same
    exact if_pos same
  · cases full

theorem foldl_of_full {table : NameTable κ} (full : table.next? = none) (rows : List (Text × κ)) :
    rows.foldl (fun table row => table.add row.1 row.2) table = table := by
  induction rows with
  | nil => rfl
  | cons row rows ih => rwa [List.foldl_cons, add_of_full full]

theorem capacity_add (table : NameTable κ) (name : Text) (code : κ) :
    (table.add name code).capacity = table.capacity := by
  unfold add
  split <;> rfl

theorem capacity_ofRows (capacity : Nat) (rows : List (Text × κ)) :
    (ofRows capacity rows).capacity = capacity := by
  have kept (table : NameTable κ) :
      (rows.foldl (fun table row => table.add row.1 row.2) table).capacity = table.capacity := by
    induction rows generalizing table with
    | nil => rfl
    | cons row rows ih => exact (ih _).trans (table.capacity_add _ _)
  exact kept _

theorem next?_ofRows {capacity : Nat} {rows : List (Text × κ)} (fits : rows.length ≤ capacity) :
    (ofRows capacity rows).next? = if rows.length < capacity then some rows.length else none := by
  have size : (ofRows capacity rows).size = rows.length := by
    rw [size, ← Array.length_toList, (holds_ofRows fits).all]
  rw [next?, size, capacity_ofRows]
  split
  · rw [if_neg (by omega)]
  · rw [if_pos (by omega)]

/-- The rows that do not fit leave no trace. -/
theorem ofRows_take (capacity : Nat) (rows : List (Text × κ)) :
    ofRows capacity rows = ofRows capacity (rows.take capacity) := by
  by_cases fits : rows.length ≤ capacity
  · rw [List.take_of_length_le fits]
  · have length : (rows.take capacity).length = capacity := by simp; omega
    have full : (ofRows capacity (rows.take capacity)).next? = none := by
      rw [next?_ofRows (by omega), if_neg (by omega)]
    conv_lhs => rw [← List.take_append_drop capacity rows]
    rw [ofRows, List.foldl_append]
    exact foldl_of_full full _

section Codes

variable [DecidableEq κ] {table : NameTable κ} {rows : List (Text × κ)}

/-- A code has the name of the last row with that code. -/
theorem Holds.lookupCode_eq_some_iff (holds : table.Holds rows) {code : κ} {name : Text} :
    table.lookupCode? code = some name ↔
      ∃ earlier later, rows = earlier ++ (name, code) :: later ∧ ∀ row ∈ later, row.2 ≠ code := by
  unfold lookupCode?
  rw [holds.all, Option.map_eq_some_iff]
  constructor
  · rintro ⟨⟨_, _⟩, found, rfl⟩
    obtain ⟨same, after, before, split, none⟩ := List.find?_eq_some_iff_append.mp found
    obtain rfl := eq_of_beq same
    refine ⟨before.reverse, after.reverse, ?_, fun row member => ?_⟩
    · rw [← List.reverse_reverse rows, split]
      simp
    · simpa using none row (List.mem_reverse.mp member)
  · rintro ⟨earlier, later, rfl, none⟩
    refine ⟨(name, code), List.find?_eq_some_iff_append.mpr
      ⟨beq_self_eq_true _, later.reverse, earlier.reverse, by simp, fun row member => ?_⟩, rfl⟩
    simpa using none row (List.mem_reverse.mp member)

theorem Holds.lookupCode_eq_none_iff (holds : table.Holds rows) {code : κ} :
    table.lookupCode? code = none ↔ ∀ row ∈ rows, row.2 ≠ code := by
  unfold lookupCode?
  rw [holds.all, Option.map_eq_none_iff, List.find?_eq_none]
  simp

end Codes

/-- Lookups answer as a scan of the rows that fit. -/
structure Scans (capacity : Nat) (rows : List (Text × Int)) (table : NameTable Int) : Prop where
  stored : table.rows.toList = rows.take capacity
  next : table.next? = (if rows.length < capacity then some rows.length else none)
  code : ∀ name, table.codeFor name =
    (((rows.take capacity).find? fun row => row.1.SameName name).map (·.2)).getD (-1)
  /-- The last row with a code has its name. -/
  name : ∀ earlier name code later, rows.take capacity = earlier ++ (name, code) :: later →
    (∀ row ∈ later, row.2 ≠ code) → table.nameFor code = name
  unnamed : ∀ code, (∀ row ∈ rows.take capacity, row.2 ≠ code) → table.nameFor code = []
  full : ∀ name code, table.next? = none → table.add name code = table

end NameTable

/-- A table stores the first rows that fit. A name has the code that a scan of them finds first, a code
the name of the last row with it. -/
theorem lookups_scan_the_stored_rows (capacity : Nat) (rows : List (Text × Int)) :
    (NameTable.ofRows capacity rows).Scans capacity rows := by
  have same := NameTable.ofRows_take capacity rows
  have fits : (rows.take capacity).length ≤ capacity := List.length_take_le capacity rows
  have holds : (NameTable.ofRows capacity rows).Holds (rows.take capacity) :=
    same ▸ NameTable.holds_ofRows fits
  refine ⟨holds.all, ?_, fun name => ?_, fun earlier name code later split last => ?_, fun code absent => ?_,
    fun name code full => NameTable.add_of_full full name code⟩
  · rw [same, NameTable.next?_ofRows fits]
    rw [List.length_take]
    split
    · rw [if_pos (by omega), Nat.min_eq_right (by omega)]
    · rw [if_neg (by omega)]
  · rw [NameTable.codeFor, same, NameTable.lookupName_ofRows fits name]
  · rw [NameTable.nameFor, holds.lookupCode_eq_some_iff.mpr ⟨earlier, later, split, last⟩, Option.getD_some]
  · rw [NameTable.nameFor, holds.lookupCode_eq_none_iff.mpr absent, Option.getD_none]

end MiniPascal
