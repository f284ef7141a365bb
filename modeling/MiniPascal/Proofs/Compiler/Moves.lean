import MiniPascal.Proofs.Compiler.Tokens
import MiniPascal.Proofs.Lexemes
import Mathlib.Logic.Relation

/-! # All that a grammar rule can do to a session

Whatever a grammar rule does, on every path through it and whether it succeeds or gives up, is a
sequence of a few kinds of moves. Each move is listed here with what is known when it is made: a quad
is written only with operands that have cells and stores only into variables and temporaries, only a
jump is retargeted, a cell is added only for a name that is new. What holds of every session that a
compilation can reach is then proved by going through the moves once.

Usage and kind of a cell change only while variables are being declared; `declaring` says whether
such moves are among them.
-/

namespace MiniPascal

/-- The fields of a quad that its operation uses as cells. -/
def Quad.cellFields (q : Quad) : List Int :=
  match q.op with
  | .div | .mul | .sub | .add => [q.a, q.b, q.c]
  | .mov => [q.a, q.c]
  | .print | .read | .jindr => [q.c]
  | .jz | .jp | .jn | .jnz | .jnp | .jnn => [q.a]
  | .stop | .jmp | .invalid _ => []

/-- A quad's operation is one of the machine's, and the fields it uses as cells name some of the
first `cells` ones. -/
def Quad.WellFormed (cells : Nat) (q : Quad) : Prop :=
  q.op.valid = true ∧ ∀ field ∈ q.cellFields, 0 ≤ field ∧ field < cells

theorem Quad.WellFormed.mono {cells more : Nat} {q : Quad} (wf : q.WellFormed cells)
    (le : cells ≤ more) : q.WellFormed more := by
  refine ⟨wf.1, fun field member => ?_⟩
  have := wf.2 field member
  omega

/-- The target of a jump is no cell. -/
theorem Quad.WellFormed.retarget {cells : Nat} {q : Quad} (wf : q.WellFormed cells)
    (jump : q.op.isJump = true) (c : Int) : Quad.WellFormed cells { q with c } := by
  refine ⟨wf.1, fun field member => wf.2 field ?_⟩
  unfold cellFields at *
  cases op : q.op <;> simp_all [Opcode.isJump]

/-- The cells that quads may store into: those of words and those of temporaries. -/
inductive SymbolTable.Assignable (table : SymbolTable) : Int → Prop
  | word {name : Text} {i : Nat} (word : name.IsWord) (found : table.lookup? name = some i) :
      Assignable table i
  | temporary {n i : Nat} (found : table.lookup? (Rule.temporaryName n) = some i) : Assignable table i

theorem SymbolTable.Assignable.later {table more : SymbolTable} {i : Int} (may : table.Assignable i)
    (found : ∀ name i, table.lookup? name = some i → more.lookup? name = some i) :
    more.Assignable i := by
  cases may with
  | word word here => exact .word word (found _ _ here)
  | temporary here => exact .temporary (found _ _ here)

namespace Session

/-- The quad at an index is a jump. -/
def JumpAt (s : Session) (i : Nat) : Prop := ∃ q, s.code[i]? = some q ∧ q.op.isJump = true

/-- A symbol that the compiler makes for itself: the constant 1 or -1, or the newest temporary. -/
def Own (s : Session) (name : Text) (value : Value) : Prop :=
  (∃ n : Int64, (n = 1 ∨ n = -1) ∧ name = .ofInt n.toInt ∧ value = .int n) ∨
    name = Rule.temporaryName s.temporaries ∧ ∃ kind, value = .zero kind

/-- One thing that a rule can do. -/
inductive Move (declaring : Prop) : Session → Session → Prop
  /-- Something is noted, or it is remembered that a variable was declared or warned about. -/
  | observe (s : Session) (journal : Journal) (depth : Nat) (warned declared : List Nat) :
      Move declaring s { s with journal, depth, warned, declared }
  | advance (s : Session) (more : s.look.kind ≠ .endOfInput) : Move declaring s s.advance
  /-- An error is reported. -/
  | fail (s : Session) (journal : Journal) :
      Move declaring s { s with journal, syntaxErrors := s.syntaxErrors + 1 }
  /-- A table turns out to be too small. -/
  | exhaust (s : Session) : Move declaring s { s with exhausted := true }
  | emit (s : Session) (q : Quad) (wf : q.WellFormed s.symbols.size)
      (target : q.op.stores = true → s.symbols.Assignable q.c)
      (room : s.quads.size < s.quads.capacity) :
      Move declaring s { s with quads := s.quads.add q }
  | patch (s : Session) (i : Nat) (c : Int) (jump : s.JumpAt i) :
      Move declaring s { s with quads := s.quads.retarget i c }
  /-- A temporary is counted. -/
  | mint (s : Session) : Move declaring s { s with temporaries := s.temporaries + 1 }
  | symbol (s : Session) (name : Text) (value : Value) (own : s.Own name value)
      (new : s.symbols.lookup? name = none) (room : s.symbols.size ≠ s.symbols.capacity) :
      Move declaring s { s with symbols := s.symbols.insert ⟨name, .constant, value⟩ }
  /-- The cell of a word gets another usage, and keeps its value or gets the zero of a kind. -/
  | declare (s : Session) (allowed : declaring) {name : Text} {i : Nat} {cell : Cell} (usage : Usage)
      (value : Value) (word : name.IsWord) (found : s.symbols.lookup? name = some i)
      (here : s.symbols.cells[i]? = some cell) (given : value = cell.value ∨ ∃ kind, value = .zero kind) :
      Move declaring s { s with symbols := s.symbols.modify i usage value }

/-- A sequence of moves. -/
abbrev Moves (declaring : Prop) : Session → Session → Prop :=
  Relation.ReflTransGen (Move declaring)

variable {declaring : Prop} {s t : Session}

theorem Move.weaken (move : Move False s t) : Move declaring s t := by
  cases move with
  | observe journal depth warned declared => exact .observe s journal depth warned declared
  | advance more => exact .advance s more
  | fail journal => exact .fail s journal
  | exhaust => exact .exhaust s
  | emit q wf target room => exact .emit s q wf target room
  | patch i c jump => exact .patch s i c jump
  | mint => exact .mint s
  | symbol name value own new room => exact .symbol s name value own new room
  | declare allowed => exact allowed.elim

theorem Moves.weaken (moves : Moves False s t) : Moves declaring s t :=
  moves.lift id fun _ _ => Move.weaken

theorem Moves.trans {u : Session} (first : Moves declaring s t) (second : Moves declaring t u) :
    Moves declaring s u :=
  Relation.ReflTransGen.trans first second

/-- A property that every move keeps is kept by a sequence of them. -/
theorem Moves.keeps {P : Session → Prop} (moves : Moves declaring s t)
    (step : ∀ s t, Move declaring s t → P s → P t) (start : P s) : P t := by
  induction moves with
  | refl => exact start
  | tail _ move ih => exact step _ _ move ih

/-! ## Symbols -/

/-- What moving on by a token can do to the symbols. -/
theorem symbols_advance (s : Session) :
    s.advance.symbols = s.symbols ∨
    ∃ item items cell, s.unread = item :: items ∧ item.cell? = some cell ∧
      s.symbols.lookup? cell.name = none ∧ s.symbols.size ≠ s.symbols.capacity ∧
      s.advance.symbols = s.symbols.insert cell := by
  cases unread : s.unread with
  | nil =>
    left
    simp [advance, Lexing.next_nil unread]
  | cons item items =>
    have symbols := (Lexing.next_cons unread).2.2.1
    change s.advance.symbols = _ at symbols
    cases registers : item.cell? with
    | none =>
      left
      rw [symbols, registers]
    | some cell =>
      rw [registers] at symbols
      dsimp only at symbols
      obtain ⟨i, found, added⟩ | ⟨new, full, added⟩ | ⟨new, room, added⟩ :=
        s.symbols.add_cases cell.name cell.usage cell.value
      · left
        rw [symbols, added]
      · left
        rw [symbols, added]
      · right
        refine ⟨item, items, cell, rfl, registers, new, room, ?_⟩
        rw [symbols, added]

theorem Move.wellFormed (move : Move declaring s t) (wf : s.symbols.WellFormed) :
    t.symbols.WellFormed := by
  cases move with
  | advance =>
    obtain same | ⟨_, _, cell, _, _, new, room, added⟩ := s.symbols_advance
    · rwa [same]
    · rw [added]
      exact wf.insert new room
  | symbol name value own new room => exact wf.insert new room
  | declare _ usage value => exact wf.modify _ usage value
  | observe | fail | exhaust | emit | patch | mint => exact wf

theorem Moves.wellFormed (moves : Moves declaring s t) (wf : s.symbols.WellFormed) :
    t.symbols.WellFormed :=
  moves.keeps (P := fun s => s.symbols.WellFormed) (fun _ _ move => move.wellFormed) wf

theorem Move.size_le (move : Move declaring s t) : s.symbols.size ≤ t.symbols.size := by
  cases move with
  | advance =>
    obtain same | ⟨_, _, cell, _, _, _, _, added⟩ := s.symbols_advance
    · exact same ▸ Nat.le_refl _
    · rw [added, SymbolTable.size_insert]
      omega
  | symbol =>
    rw [SymbolTable.size_insert]
    omega
  | declare => exact Nat.le_of_eq (SymbolTable.size_modify ..).symm
  | observe | fail | exhaust | emit | patch | mint => exact Nat.le_refl _

theorem Moves.size_le (moves : Moves declaring s t) : s.symbols.size ≤ t.symbols.size :=
  moves.keeps (P := fun t => s.symbols.size ≤ t.symbols.size)
    (fun _ _ move le => Nat.le_trans le move.size_le) (Nat.le_refl _)

/-- A name that has a cell keeps it. -/
theorem Move.lookup (move : Move declaring s t) {name : Text} {i : Nat}
    (found : s.symbols.lookup? name = some i) : t.symbols.lookup? name = some i := by
  cases move with
  | advance =>
    obtain same | ⟨_, _, cell, _, _, new, _, added⟩ := s.symbols_advance
    · rwa [same]
    · rw [added]
      exact (SymbolTable.extends_insert new).lookup _ _ found
  | symbol _ _ _ new => exact (SymbolTable.extends_insert new).lookup _ _ found
  | observe | fail | exhaust | emit | patch | mint | declare => exact found

/-- Outside declarations a table only grows. -/
theorem Moves.extends (moves : Moves False s t) : s.symbols.Extends t.symbols := by
  refine moves.keeps (P := fun t => s.symbols.Extends t.symbols) (fun t u move extend => ?_)
    (.refl _)
  cases move with
  | advance =>
    obtain same | ⟨_, _, cell, _, _, new, _, added⟩ := t.symbols_advance
    · rwa [same]
    · rw [added]
      exact extend.trans (SymbolTable.extends_insert new)
  | symbol name value own new room => exact extend.trans (SymbolTable.extends_insert new)
  | declare allowed => exact allowed.elim
  | observe | fail | exhaust | emit | patch | mint => exact extend

/-! ## Quads -/

theorem Move.jumpAt (move : Move declaring s t) {i : Nat} (jump : s.JumpAt i) : t.JumpAt i := by
  obtain ⟨q, here, isJump⟩ := jump
  cases move with
  | emit added wf _ room =>
    refine ⟨q, ?_, isJump⟩
    change (s.quads.add added).code[i]? = some q
    rw [QuadTable.code_add room, List.getElem?_append_left (List.getElem?_eq_some_iff.mp here).1]
    exact here
  | patch j c =>
    refine ⟨if j = i then { q with c } else q, ?_, by split <;> exact isJump⟩
    change (s.quads.retarget j c).code[i]? = _
    rw [QuadTable.code_retarget, List.getElem?_modify]
    change s.quads.code[i]? = some q at here
    rw [here]
    split <;> rfl
  | observe | advance | fail | exhaust | mint | symbol | declare => exact ⟨q, here, isJump⟩

theorem Moves.jumpAt (moves : Moves declaring s t) {i : Nat} (jump : s.JumpAt i) : t.JumpAt i :=
  moves.keeps (P := fun t => t.JumpAt i) (fun _ _ move => move.jumpAt) jump

/-- Every stored quad is well formed. -/
def Sound (s : Session) : Prop := ∀ q ∈ s.code, q.WellFormed s.symbols.size

/-- A quad after a move was there before, is the one that was written, or is a jump that was given
another target. -/
theorem Move.mem_code (move : Move declaring s t) {q : Quad} (member : q ∈ t.code) :
    q ∈ s.code ∨
      (q.WellFormed s.symbols.size ∧ (q.op.stores = true → s.symbols.Assignable q.c)) ∨
      ∃ old ∈ s.code, old.op.isJump = true ∧ ∃ c, q = { old with c } := by
  cases move with
  | emit added wf target room =>
    change q ∈ (s.quads.add added).code at member
    rw [QuadTable.code_add room] at member
    obtain old | new := List.mem_append.mp member
    · exact .inl old
    · obtain rfl := List.mem_singleton.mp new
      exact .inr (.inl ⟨wf, target⟩)
  | patch i c jump =>
    change q ∈ (s.quads.retarget i c).code at member
    rw [QuadTable.code_retarget] at member
    obtain ⟨j, here⟩ := List.mem_iff_getElem?.mp member
    rw [List.getElem?_modify] at here
    obtain ⟨old, stored, isJump⟩ := jump
    split at here
    · rename_i same
      subst same
      change s.quads.code[i]? = some old at stored
      rw [stored] at here
      cases here
      exact .inr (.inr ⟨old, List.mem_of_getElem? stored, isJump, c, rfl⟩)
    · exact .inl (List.mem_of_getElem? (by simpa using here))
  | observe | advance | fail | exhaust | mint | symbol | declare => exact .inl member

theorem Move.sound (move : Move declaring s t) (sound : s.Sound) : t.Sound := by
  intro q member
  refine Quad.WellFormed.mono ?_ move.size_le
  obtain old | ⟨wf, _⟩ | ⟨old, stored, jump, c, rfl⟩ := move.mem_code member
  · exact sound q old
  · exact wf
  · exact (sound old stored).retarget jump c

theorem Moves.sound (moves : Moves declaring s t) (sound : s.Sound) : t.Sound :=
  moves.keeps (fun _ _ move => move.sound) sound

theorem Move.quads_le (move : Move declaring s t) :
    s.quads.size ≤ t.quads.size ∧ t.quads.capacity = s.quads.capacity := by
  cases move with
  | emit q wf _ room =>
    refine ⟨?_, QuadTable.capacity_add _ _⟩
    change _ ≤ (s.quads.add q).size
    rw [QuadTable.size_add room]
    omega
  | patch i c =>
    exact ⟨Nat.le_of_eq (QuadTable.size_retarget ..).symm, QuadTable.capacity_retarget ..⟩
  | observe | advance | fail | exhaust | mint | symbol | declare => exact ⟨Nat.le_refl _, rfl⟩

theorem Moves.quads_le (moves : Moves declaring s t) :
    s.quads.size ≤ t.quads.size ∧ t.quads.capacity = s.quads.capacity :=
  moves.keeps
    (P := fun t => s.quads.size ≤ t.quads.size ∧ t.quads.capacity = s.quads.capacity)
    (fun _ _ move before => ⟨Nat.le_trans before.1 move.quads_le.1, move.quads_le.2.trans before.2⟩)
    ⟨Nat.le_refl _, rfl⟩

theorem Move.quads_fit (move : Move declaring s t) (fits : s.quads.size ≤ s.quads.capacity) :
    t.quads.size ≤ t.quads.capacity := by
  cases move with
  | emit q wf _ room =>
    change (s.quads.add q).size ≤ (s.quads.add q).capacity
    rw [QuadTable.size_add room, QuadTable.capacity_add]
    exact room
  | patch i c =>
    change (s.quads.retarget i c).size ≤ (s.quads.retarget i c).capacity
    rw [QuadTable.size_retarget, QuadTable.capacity_retarget]
    exact fits
  | observe | advance | fail | exhaust | mint | symbol | declare => exact fits

theorem Moves.quads_fit (moves : Moves declaring s t) (fits : s.quads.size ≤ s.quads.capacity) :
    t.quads.size ≤ t.quads.capacity :=
  moves.keeps (P := fun s => s.quads.size ≤ s.quads.capacity)
    (fun _ _ move => move.quads_fit) fits

/-- The identifiers still to be read are words. -/
structure Worded (s : Session) : Prop where
  look : s.look.kind = .identifier → s.look.text.IsWord
  unread : ∀ item ∈ s.unread, item.token.kind = .identifier → item.token.text.IsWord

theorem Worded.advance (words : s.Worded) : s.advance.Worded := by
  refine ⟨?_, fun item member => words.unread item ?_⟩
  · cases unread : s.unread with
    | nil => simp [Session.advance, Lexing.next_nil unread, Token.endOfInput]
    | cons item items =>
      have token : s.advance.look = item.token := (Lexing.next_cons unread).1
      rw [token]
      exact words.unread item (by simp [unread])
  · rw [unread_advance] at member
    exact List.mem_of_mem_drop member

theorem Move.worded (move : Move declaring s t) (words : s.Worded) : t.Worded := by
  cases move with
  | advance => exact words.advance
  | observe | fail | exhaust | emit | patch | mint | symbol | declare => exact ⟨words.look, words.unread⟩

/-- The tables of a session are in order, and so are the tokens. -/
structure Valid (s : Session) : Prop where
  symbols : s.symbols.WellFormed
  quads : s.quads.size ≤ s.quads.capacity
  words : s.Worded

theorem Moves.valid (moves : Moves declaring s t) (valid : s.Valid) : t.Valid :=
  ⟨moves.wellFormed valid.symbols, moves.quads_fit valid.quads,
    moves.keeps (fun _ _ move => move.worded) valid.words⟩

/-! ## Tokens and errors -/

/-- No error was reported. -/
def Clean (s : Session) : Prop := s.syntaxErrors = 0 ∧ s.lexicalErrors = 0

/-- The symbol table has no room left. -/
def NoCells (s : Session) : Prop := s.symbols.size = s.symbols.capacity

/-- A table has no room left. -/
def Full (s : Session) : Prop := s.NoCells ∨ s.quads.size = s.quads.capacity

theorem Move.syntaxErrors_le (move : Move declaring s t) : s.syntaxErrors ≤ t.syntaxErrors := by
  cases move with
  | fail => exact Nat.le_succ _
  | observe | advance | exhaust | emit | patch | mint | symbol | declare => exact Nat.le_refl _

theorem Moves.syntaxErrors_le (moves : Moves declaring s t) : s.syntaxErrors ≤ t.syntaxErrors :=
  moves.keeps (P := fun t => s.syntaxErrors ≤ t.syntaxErrors)
    (fun _ _ move le => Nat.le_trans le move.syntaxErrors_le) (Nat.le_refl _)

theorem Move.capacity (move : Move declaring s t) : t.symbols.capacity = s.symbols.capacity := by
  cases move with
  | advance =>
    obtain same | ⟨_, _, cell, _, _, _, _, added⟩ := s.symbols_advance
    · rw [same]
    · rw [added]
      rfl
  | observe | fail | exhaust | emit | patch | mint | symbol | declare => rfl

theorem Moves.capacity (moves : Moves declaring s t) : t.symbols.capacity = s.symbols.capacity :=
  moves.keeps (P := fun t => t.symbols.capacity = s.symbols.capacity)
    (fun _ _ move before => move.capacity.trans before) rfl

/-- A table that is full stays full. -/
theorem Moves.noCells (moves : Moves declaring s t) (valid : s.Valid) (full : s.NoCells) :
    t.NoCells := by
  have grown := moves.size_le
  have fits := (moves.valid valid).symbols.fits
  have same := moves.capacity
  unfold NoCells at *
  omega

/-- The errors counted while moving on by a token: those noted in the item, and one more if its
symbol finds no room. -/
theorem lexicalErrors_advance {s : Session} {item : Scanned} {items : List Scanned}
    (unread : s.unread = item :: items) :
    s.lexicalErrors + item.errors ≤ s.advance.lexicalErrors ∧
    (s.advance.lexicalErrors = s.lexicalErrors + item.errors ∨ s.NoCells) := by
  have errors := (Lexing.next_cons unread).2.2.2
  change s.advance.lexicalErrors = _ at errors
  rw [errors]
  refine ⟨Nat.le_add_right _ _, ?_⟩
  unfold Lexing.refuses
  cases registers : item.cell? with
  | none => simp
  | some cell =>
    obtain ⟨i, found, added⟩ | ⟨new, full, added⟩ | ⟨new, room, added⟩ :=
      s.symbols.add_cases cell.name cell.usage cell.value
    · simp [added]
    · exact .inr full
    · simp [added]

/-- The tokens read between two sessions, and the errors counted in them. -/
structure Consumes (s t : Session) (n : Nat) : Prop where
  bound : n ≤ s.ahead.length
  ahead : t.ahead = s.ahead.drop n
  unread : t.unread = s.unread.drop n
  errors_le : s.lexicalErrors + errorsIn (s.unread.take n) ≤ t.lexicalErrors
  errors_eq : t.lexicalErrors = s.lexicalErrors + errorsIn (s.unread.take n) ∨ t.NoCells

theorem Consumes.advance {u : Session} {n : Nat} (consumed : Consumes s t n)
    (more : t.look.kind ≠ .endOfInput) (full : t.NoCells → u.NoCells) (next : u = t.advance) :
    Consumes s u (n + 1) := by
  have tokens := ahead_eq_cons more
  rw [consumed.ahead] at tokens
  have left : n < s.ahead.length := by
    have := congrArg List.length tokens
    simp at this
    omega
  have rest : t.advance.ahead = s.ahead.drop (n + 1) := by
    rw [← List.tail_drop, tokens]
    rfl
  have unread : t.advance.unread = s.unread.drop (n + 1) := by
    rw [unread_advance, consumed.unread, List.drop_drop]
  subst next
  cases items : t.unread with
  | nil =>
    have used : s.unread.length ≤ n := by
      rw [consumed.unread] at items
      exact List.drop_eq_nil_iff.mp items
    have same : s.unread.take (n + 1) = s.unread.take n := by
      rw [List.take_of_length_le used, List.take_of_length_le (by omega)]
    have kept : t.advance.lexicalErrors = t.lexicalErrors := by
      simp [Session.advance, Lexing.next_nil items]
    refine ⟨left, rest, unread, ?_, ?_⟩
    · rw [same, kept]
      exact consumed.errors_le
    · rw [same, kept]
      exact consumed.errors_eq.imp_right full
  | cons item items' =>
    obtain ⟨le, eq⟩ := lexicalErrors_advance items
    have taken : s.unread.take (n + 1) = s.unread.take n ++ [item] := by
      have : s.unread[n]? = some item := by
        have := congrArg List.head? (consumed.unread.symm.trans items)
        simpa [List.head?_drop] using this
      rw [List.take_add_one, this]
      rfl
    have counted : errorsIn (s.unread.take (n + 1)) = errorsIn (s.unread.take n) + item.errors := by
      rw [taken, errorsIn_append]
      simp
    have before := consumed.errors_le
    refine ⟨left, rest, unread, by omega, ?_⟩
    obtain here | noCells := consumed.errors_eq
    · obtain here' | noCells := eq
      · left
        omega
      · exact .inr (full noCells)
    · exact .inr (full noCells)

/-- Moves only ever take tokens from the front. -/
theorem Moves.consumes (moves : Moves declaring s t) (valid : s.Valid) : ∃ n, Consumes s t n := by
  induction moves with
  | refl => exact ⟨0, Nat.zero_le _, rfl, rfl, by simp, .inl (by simp)⟩
  | tail before move ih =>
    obtain ⟨n, consumed⟩ := ih
    have full := Moves.noCells (Relation.ReflTransGen.single move) (Moves.valid before valid)
    cases move with
    | advance more => exact ⟨n + 1, consumed.advance more full rfl⟩
    | symbol | declare =>
      exact ⟨n, consumed.bound, consumed.ahead, consumed.unread, consumed.errors_le,
        consumed.errors_eq.imp_right full⟩
    | observe | fail | exhaust | emit | patch | mint =>
      exact ⟨n, consumed.bound, consumed.ahead, consumed.unread, consumed.errors_le,
        consumed.errors_eq⟩

theorem Moves.clean (moves : Moves declaring s t) (valid : s.Valid) (clean : t.Clean) :
    s.Clean := by
  obtain ⟨n, consumed⟩ := moves.consumes valid
  have := consumed.errors_le
  have := moves.syntaxErrors_le
  unfold Clean at *
  omega

end Session

end MiniPascal
