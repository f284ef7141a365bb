import MiniPascal.Compiler.Lexing

/-! # Reading lines and tokens comes to an end

Each line that is read from the streams takes at least one character or one stream away from what is
unread, and each token takes at least one character. The fuel of both loops is more than there is to
take, so it never decides where they end.
-/

namespace MiniPascal

/-! ## Lines -/

namespace Stream

theorem cutLine_length {row line rest : List Char} (cut : cutLine row = (line, some rest)) :
    rest.length < row.length := by
  induction row generalizing line with
  | nil => cases cut
  | cons c row ih =>
    unfold cutLine at cut
    split at cut
    · cases cut
      exact Nat.lt_succ_self _
    · cases below : cutLine row with
      | mk line' after =>
        rw [below] at cut
        cases cut
        exact Nat.lt_succ_of_lt (ih below)

/-- A line end that is found is taken away. -/
theorem readBlocks_length (ready : List Char) (torn : Nat) (later : List Block)
    {piece rest : List Char} {torn' : Nat} {more : List Block}
    (read : readBlocks ready torn later = (piece, true, rest, torn', more)) :
    (rest ++ more.flatMap (·.chars)).length < (ready ++ later.flatMap (·.chars)).length := by
  induction later generalizing ready torn piece with
  | nil =>
    unfold readBlocks at read
    split at read
    · rename_i cut
      cases read
      simpa using cutLine_length cut
    · cases read
  | cons block later ih =>
    unfold readBlocks at read
    split at read
    · rename_i cut
      have shorter := cutLine_length cut
      cases read
      simp only [List.length_append]
      omega
    · dsimp only at read
      cases deeper : readBlocks block.chars block.torn later with
      | mk piece' result =>
        obtain ⟨found, state⟩ := result
        rw [deeper] at read
        cases read
        have shorter := ih block.chars block.torn deeper
        simp only [List.flatMap_cons, List.length_append] at shorter ⊢
        omega

theorem readPiece_length {stream rest : Stream} {piece : List Char}
    (read : stream.readPiece = (piece, true, rest)) : rest.chars.length < stream.chars.length := by
  unfold readPiece at read
  cases blocks : readBlocks stream.ready stream.torn stream.later with
  | mk piece' result =>
    obtain ⟨found, ready, torn, later⟩ := result
    rw [blocks] at read
    cases read
    exact readBlocks_length _ _ _ blocks

end Stream

namespace Input

/-- What is unread in the streams of a queue. -/
def waiting (queue : List Stream) : Nat := (queue.flatMap (·.chars)).length + queue.length

theorem waiting_cons (stream : Stream) (queue : List Stream) :
    waiting (stream :: queue) = stream.chars.length + 1 + waiting queue := by
  simp only [waiting, List.flatMap_cons, List.length_append, List.length_cons]
  omega

/-- What reading a line from a stream leaves unread, if it does not fail. -/
theorem readStream_unread (input : Input) (stream : Stream) :
    match input.readStream stream with
    | .line _ after => after.unread < stream.chars.length + 1 + waiting input.queue
    | .failed .. => True
    | .ended after => after.current = none ∧ after.queue = input.queue := by
  unfold readStream
  cases read : stream.readPiece with
  | mk piece result =>
    obtain ⟨found, rest⟩ := result
    dsimp only
    cases found with
    | true =>
      have shorter := Stream.readPiece_length read
      simp only [if_true, finishLine, unread, waiting, Option.elim_some]
      omega
    | false =>
      cases stream.failing with
      | some failure => trivial
      | none =>
        by_cases left : input.scan.text ++ piece ≠ []
        · simp only [Bool.false_eq_true, if_false, if_pos left, finishLine, unread, waiting,
            Option.elim_none]
          omega
        · simp [left]

theorem readQueue_unread (queue : List Stream) {input after : Input} {line : List Char}
    (read : input.readQueue queue = (.ok line, after)) : after.unread < waiting queue := by
  induction queue generalizing input with
  | nil => cases read
  | cons stream queue ih =>
    unfold readQueue at read
    have taken := readStream_unread (input.turnTo stream queue) stream
    rw [waiting_cons]
    cases outcome : (input.turnTo stream queue).readStream stream with
    | line text input' =>
      rw [outcome] at read taken
      cases read
      exact taken
    | failed failure input' =>
      rw [outcome] at read
      cases read
    | ended input' =>
      rw [outcome] at read
      have := ih read
      omega

/-- A line that is read leaves less to read. -/
theorem readLine_unread {input after : Input} {line : List Char}
    (read : input.readLine = (.ok line, after)) : after.unread < input.unread := by
  unfold readLine at read
  cases current : input.current with
  | none =>
    rw [current] at read
    have whole : input.unread = waiting input.queue := by simp [unread, current, waiting]
    rw [whole]
    exact readQueue_unread _ read
  | some stream =>
    rw [current] at read
    have whole : input.unread = stream.chars.length + 1 + waiting input.queue := by
      simp only [unread, current, Option.elim_some, waiting]
      omega
    have taken := readStream_unread input stream
    cases outcome : input.readStream stream with
    | line text input' =>
      simp only [outcome] at read taken
      cases read
      omega
    | failed failure input' =>
      simp only [outcome] at read
      cases read
    | ended input' =>
      simp only [outcome] at read taken
      have := readQueue_unread _ read
      rw [taken.2] at this
      omega

/-- More fuel than there are lines finds the same lines. -/
theorem drain_of_enough (fuel more : Nat) {input : Input} (enough : input.unread < fuel)
    (enough' : input.unread < more) : input.drain fuel = input.drain more := by
  induction fuel generalizing input more with
  | zero => omega
  | succ fuel ih =>
    obtain _ | more := more
    · omega
    unfold drain
    cases read : input.readLine with
    | mk result after =>
      cases result with
      | error failure => cases failure <;> rfl
      | ok line =>
        have := readLine_unread read
        dsimp only
        rw [ih more (by omega) (by omega)]

end Input

/-! ## Tokens -/

namespace Scan

theorem skipLine_length (gap : Gap) (row : List Char) : (skipLine gap row).2.length ≤ row.length := by
  fun_induction skipLine gap row <;> simp only [List.length_cons, List.length_nil] at * <;> omega

theorem skipGap_size (gap : Gap) (here : List Char) (number : Nat) (below : List (List Char)) :
    (skipGap gap here number below).2.2.size ≤ here.length + below.flatten.length := by
  induction below generalizing gap here number with
  | nil =>
    have := skipLine_length gap here
    simpa [skipGap, Place.size] using this
  | cons next below ih =>
    have shorter := skipLine_length gap here
    unfold skipGap
    split
    · rename_i gap' _
      have := ih gap' next (number + 1)
      dsimp only
      simp only [List.flatten_cons, List.length_append]
      omega
    · rename_i gap' rest _ skipped
      rw [skipped] at shorter
      simp only [Place.size, List.flatten_cons, List.length_append] at *
      omega

theorem length_dropWhile_le (p : Char → Bool) (row : List Char) :
    (row.dropWhile p).length ≤ row.length :=
  (List.dropWhile_sublist p).length_le

theorem takeFraction_length (row : List Char) : (takeFraction row).2.length ≤ row.length := by
  unfold takeFraction
  split
  · exact Nat.le_succ_of_le (length_dropWhile_le _ _)
  · exact Nat.le_refl _

theorem takeExponent_length (row : List Char) : (takeExponent row).2.length ≤ row.length := by
  unfold takeExponent
  split
  · rename_i mark next rest
    have whole := length_dropWhile_le isDigit (next :: rest)
    have tail := length_dropWhile_le isDigit rest
    simp only [List.length_cons] at *
    split
    · split
      · dsimp only
        omega
      · split
        · dsimp only
          omega
        · exact Nat.le_refl _
    · exact Nat.le_refl _
  · exact Nat.le_refl _

/-- The token that starts with a character takes that character at least. -/
theorem lexeme_length (quote c : Char) (row : List Char) :
    (lexeme quote c row).2.length ≤ row.length := by
  unfold lexeme
  split
  · exact length_dropWhile_le _ _
  split
  · rename_i digit
    have digits : ((c :: row).dropWhile isDigit).length ≤ row.length := by
      rw [List.dropWhile_cons_of_pos digit]
      exact length_dropWhile_le _ _
    have fraction := takeFraction_length ((c :: row).dropWhile isDigit)
    have exponent := takeExponent_length (takeFraction ((c :: row).dropWhile isDigit)).2
    simp only [takeNumber]
    omega
  split
  · unfold textLiteral
    have inner := length_dropWhile_le (· ≠ quote) row
    cases closing : row.dropWhile (· ≠ quote) with
    | nil => exact Nat.zero_le _
    | cons _ rest =>
      rw [closing] at inner
      exact Nat.le_of_succ_le inner
  · unfold operator
    split
    · split
      · exact Nat.le_succ _
      · exact Nat.le_refl _
    · exact Nat.le_refl _

/-- One request for a token: what it brings, and the place after it. -/
def request (quote : Char) (failure : Option Failure) (place : Place) : Scanned × Place :=
  match skipGap .space place.here place.number place.below with
  | (notes, gap, ⟨[], number, below⟩) =>
    (⟨notes ++ endNotes gap failure, none, number⟩, ⟨[], number, below⟩)
  | (notes, _, ⟨c :: row, number, below⟩) =>
    (⟨notes ++ (lexeme quote c row).1.issues.map .issue, some (lexeme quote c row).1, number⟩,
      ⟨(lexeme quote c row).2, number, below⟩)

/-- A request that brings a token takes a character away. -/
theorem request_size {quote : Char} {failure : Option Failure} {place : Place}
    (found : (request quote failure place).1.lexeme.isSome) :
    (request quote failure place).2.size < place.size := by
  have gap := skipGap_size .space place.here place.number place.below
  unfold request at *
  split at found
  · cases found
  · rename_i notes _ c row number below skipped
    have shorter := lexeme_length quote c row
    rw [skipped] at gap
    simp only [Place.size, List.length_cons] at *
    omega

/-- The items are what the requests bring, up to the first one without a token. -/
theorem items_succ (quote : Char) (failure : Option Failure) (fuel : Nat) (place : Place) :
    items quote failure (fuel + 1) place =
      (request quote failure place).1 ::
        if (request quote failure place).1.lexeme.isSome then
          items quote failure fuel (request quote failure place).2
        else [] := by
  rcases skipped : skipGap .space place.here place.number place.below with
    ⟨notes, gap, rest, number, below⟩
  cases rest with
  | nil => simp [items, request, skipped]
  | cons c row => simp [items, request, skipped]

/-- More fuel than there are characters finds the same items. -/
theorem items_of_enough (quote : Char) (failure : Option Failure) (fuel more : Nat) {place : Place}
    (enough : place.size < fuel) (enough' : place.size < more) :
    items quote failure fuel place = items quote failure more place := by
  induction fuel generalizing place more with
  | zero => omega
  | succ fuel ih =>
    obtain _ | more := more
    · omega
    rw [items_succ, items_succ]
    split
    · rename_i found
      have := request_size found
      rw [ih more (by omega) (by omega)]
    · rfl

/-- All items from a place on. -/
def itemsFrom (quote : Char) (failure : Option Failure) (place : Place) : List Scanned :=
  items quote failure (place.size + 1) place

theorem itemsFrom_eq (quote : Char) (failure : Option Failure) (place : Place) :
    itemsFrom quote failure place =
      (request quote failure place).1 ::
        if (request quote failure place).1.lexeme.isSome then
          itemsFrom quote failure (request quote failure place).2
        else [] := by
  unfold itemsFrom
  rw [items_succ]
  split
  · rename_i found
    have := request_size found
    rw [items_of_enough quote failure place.size ((request quote failure place).2.size + 1)
      (by omega) (by omega)]
  · rfl

end Scan

end MiniPascal
