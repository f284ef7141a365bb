import MiniPascal.Proofs.Lexing.Grammar

/-! # The table of reserved words and operators

Looking a name up in a table of names gives the code of the first row with that name, whatever the case.
No character but the sign itself has a sign as its upper case, so the operators of two characters that
the scanner finds in the table are those that stand there.
-/

namespace MiniPascal

namespace NameTable

variable {κ : Type}

/-- A table that holds the given rows, with the first row of every name in its index. -/
structure Holds (table : NameTable κ) (rows : List (Text × κ)) : Prop where
  all : table.rows.toList = rows
  first : ∀ key, table.first.lookup key = rows.findIdx? fun row => row.1.fold == key

theorem Holds.add {table : NameTable κ} {rows : List (Text × κ)} (holds : table.Holds rows)
    (room : rows.length < table.capacity) (row : Text × κ) :
    (table.add row.1 row.2).Holds (rows ++ [row]) ∧
      (table.add row.1 row.2).capacity = table.capacity := by
  have size : table.size = rows.length := by
    rw [← holds.all]
    exact Array.length_toList.symm
  unfold NameTable.add
  rw [if_neg (by omega)]
  refine ⟨⟨by simp [holds.all], fun key => ?_⟩, rfl⟩
  rw [List.findIdx?_append, ← holds.first key]
  dsimp only
  cases known : table.first.lookup row.1.fold with
  | some i =>
    by_cases same : row.1.fold = key
    · rw [← same, known]
      rfl
    · simp [List.findIdx?_cons, same]
  | none =>
    dsimp only
    rw [List.lookup_cons]
    by_cases same : row.1.fold = key
    · simp [← same, known, List.findIdx?_cons, size]
    · have other : (key == row.1.fold) = false := beq_eq_false_iff_ne.mpr (Ne.symm same)
      simp [other, List.findIdx?_cons, same]

theorem Holds.foldl {table : NameTable κ} {before : List (Text × κ)} (holds : table.Holds before)
    (rows : List (Text × κ)) (fits : before.length + rows.length ≤ table.capacity) :
    (rows.foldl (fun table row => table.add row.1 row.2) table).Holds (before ++ rows) := by
  induction rows generalizing table before with
  | nil => simpa using holds
  | cons row rows ih =>
    rw [List.length_cons] at fits
    obtain ⟨added, capacity⟩ := holds.add (by omega) row
    have all := ih added (by rw [capacity, List.length_append, List.length_singleton]; omega)
    rwa [List.append_assoc] at all

theorem bind_findIdx {α β : Type} (p : α → Bool) (f : α → β) (list : List α) :
    ((list.findIdx? p).bind fun i => list[i]?.map f) = (list.find? p).map f := by
  induction list with
  | nil => rfl
  | cons x list ih =>
    rw [List.findIdx?_cons, List.find?_cons]
    cases p x with
    | true => rfl
    | false => simpa [Option.bind_map, Function.comp_def] using ih

/-- The table of rows that fit holds them all. -/
theorem holds_ofRows {capacity : Nat} {rows : List (Text × κ)} (fits : rows.length ≤ capacity) :
    (ofRows capacity rows).Holds rows := by
  have none : (empty capacity : NameTable κ).Holds [] := ⟨rfl, fun _ => rfl⟩
  exact none.foldl rows (by simpa [empty] using fits)

/-- A name has the code of the first row with that name. -/
theorem lookupName_ofRows {capacity : Nat} {rows : List (Text × κ)} (fits : rows.length ≤ capacity)
    (name : Text) : (ofRows capacity rows).lookupName? name =
      (rows.find? fun row => row.1.SameName name).map (·.2) := by
  have holds := holds_ofRows fits
  have stored (i : Nat) : (ofRows capacity rows).rows[i]? = rows[i]? := by
    rw [← Array.getElem?_toList]
    exact congrArg (·[i]?) holds.all
  unfold lookupName?
  rw [show (ofRows capacity rows).first.lookup name.fold = _ from holds.first name.fold]
  simp only [stored, bind_findIdx]
  congr 2
  funext row
  exact Bool.eq_iff_iff.mpr (by rw [beq_iff_eq, decide_eq_true_eq, Text.SameName])

end NameTable

/-! ## Upper case -/

/-- The upper case of a character beyond ASCII is never a sign or a digit. -/
theorem upperCase_of_small {c : Char} (small : (upperCase c).toNat < 65) : upperCase c = c := by
  by_cases ascii : c.toNat < 128
  · have all : ∀ n < 128, (upperCase (Char.ofNat n)).toNat < 65 →
        upperCase (Char.ofNat n) = Char.ofNat n := by decide +kernel
    have here := all c.toNat ascii
    rw [Char.ofNat_toNat] at here
    exact here small
  · unfold upperCase at small ⊢
    rw [if_neg ascii] at small ⊢
    cases found : caseRuns.find? (·.covers c.toNat) with
    | none => rfl
    | some run =>
      have far : ∀ run ∈ caseRuns, 65 ≤ run.first + run.distance ∧
          (run.last + run.distance < 0xD800 ∨
            0xDFFF < run.first + run.distance ∧ run.last + run.distance < 0x110000) := by
        decide +kernel
      obtain ⟨low, range⟩ := far run (List.mem_of_find?_eq_some found)
      have covers := List.find?_some found
      simp only [CaseRun.covers, Bool.and_eq_true, decide_eq_true_eq] at covers
      rw [found] at small
      have valid : (c.toNat + run.distance).toNat.isValidChar := by
        unfold Nat.isValidChar
        omega
      have same : (Char.ofNat (c.toNat + run.distance).toNat).toNat = (c.toNat + run.distance).toNat := by
        rw [Char.ofNat, dif_pos valid]
        rfl
      dsimp only at small
      omega

/-! ## Reserved words and operators -/

theorem reserved_lookup (lexeme : List Char) :
    TokenKind.reserved.lookupName? (.ofChars lexeme) = tableKind? lexeme := by
  unfold TokenKind.reserved tableKind?
  rw [NameTable.lookupName_ofRows (by decide), List.find?_map, Option.map_map]
  rfl

/-- The operators of two characters. -/
theorem mem_operatorPairs {c d : Char} :
    [c, d] ∈ operatorPairs ↔ Scan.startsPair c = true ∧ (tableKind? [c, d]).isSome = true := by
  constructor
  · have all : ∀ row ∈ operatorPairs,
        (row.head?.all Scan.startsPair && (tableKind? row).isSome) = true := by
      decide +kernel
    intro member
    exact Bool.and_eq_true_iff.mp (all [c, d] member)
  · rintro ⟨starts, found⟩
    unfold tableKind? at found
    rw [Option.isSome_map, List.find?_isSome] at found
    obtain ⟨row, member, same⟩ := found
    have spelled : row.1.toList.map upperCase = [upperCase c, upperCase d] := by
      have same := of_decide_eq_true same
      rwa [Text.SameName, Text.ofString, Text.fold_ofChars, Text.fold_ofChars] at same
    have first : upperCase c = c := by
      simp only [Scan.startsPair, Bool.or_eq_true, beq_iff_eq] at starts
      obtain (rfl | rfl) | rfl := starts <;> decide
    have all : ∀ row ∈ TokenKind.reservedRows, ∀ pair, row.1.toList.map upperCase = pair →
        pair.head?.any Scan.startsPair = true → pair.length = 2 →
          pair ∈ operatorPairs ∧ pair.all (·.toNat < 65) = true := by
      simp only [forall_eq']
      decide +kernel
    obtain ⟨pair, small⟩ := all row member _ spelled (by rw [first]; exact starts) rfl
    have second : upperCase d = d := by
      refine upperCase_of_small ?_
      simpa using List.all_eq_true.mp small (upperCase d) (by simp)
    rwa [first, second] at pair

end MiniPascal
