import MiniPascal.Report.LineSplitter

/-! # Lines do not depend on how a text is cut into chunks

A splitter is given a text in chunks, and may be asked in between for a line that has no end yet. Such a
request stands for a line end where there is something to hand on, and for nothing elsewhere. The lines that
are handed on are those of the text that all the calls stand for, and what is pending is the rest of it.
-/

namespace MiniPascal

/-- The bytes that are left after the last line end of a text. -/
def unended (text : Bytes) : Bytes := (text.splitOn '\n'.toUInt8).getLast?.getD []

/-- A text consists of complete lines and of a rest without a line end. -/
structure FallsInto (text : Bytes) (lines : List Bytes) (rest : Bytes) : Prop where
  whole : text = lines.flatMap (· ++ ['\n'.toUInt8]) ++ rest
  lines : ∀ line ∈ lines, '\n'.toUInt8 ∉ line
  rest : '\n'.toUInt8 ∉ rest

namespace FallsInto

variable {text more rest left : Bytes} {lines others : List Bytes}

theorem of_open (rest : '\n'.toUInt8 ∉ text) : FallsInto text [] text :=
  ⟨rfl, List.forall_mem_nil _, rest⟩

theorem line {line : Bytes} (open' : '\n'.toUInt8 ∉ line) (later : FallsInto text lines rest) :
    FallsInto (line ++ '\n'.toUInt8 :: text) (line :: lines) rest := by
  refine ⟨?_, List.forall_mem_cons.mpr ⟨open', later.lines⟩, later.rest⟩
  rw [later.whole]
  simp

/-- What follows a text continues its rest. -/
theorem append (first : FallsInto text lines rest) (second : FallsInto (rest ++ more) others left) :
    FallsInto (text ++ more) (lines ++ others) left := by
  refine ⟨?_, List.forall_mem_append.mpr ⟨first.lines, second.lines⟩, second.rest⟩
  rw [first.whole, List.append_assoc, second.whole, List.flatMap_append, List.append_assoc]

theorem splitOn (falls : FallsInto text lines rest) : text.splitOn '\n'.toUInt8 = lines ++ [rest] := by
  obtain ⟨rfl, complete, open'⟩ := falls
  induction lines with
  | nil => exact List.splitOn_eq_singleton open'
  | cons line lines ih =>
    obtain ⟨here, later⟩ := List.forall_mem_cons.mp complete
    have split : (line :: lines).flatMap (· ++ ['\n'.toUInt8]) ++ rest =
        line ++ '\n'.toUInt8 :: (lines.flatMap (· ++ ['\n'.toUInt8]) ++ rest) := by simp
    rw [split, List.splitOn_append_cons_self_of_not_mem here, ih later, List.cons_append]

theorem unended (falls : FallsInto text lines rest) : unended text = rest := by
  rw [MiniPascal.unended, falls.splitOn, List.getLast?_concat, Option.getD_some]

end FallsInto

namespace LineSplitter

/-- A call on a splitter. -/
inductive Call where
  | write (chunk : Bytes)
  | sync

/-- Makes a call: the lines that are handed on, and the splitter afterwards. -/
def call (splitter : LineSplitter) : Call → List Bytes × LineSplitter
  | .write chunk => (splitter.write chunk).2
  | .sync => splitter.sync

/-- The lines that some calls hand on, and the splitter after them. -/
def after (splitter : LineSplitter) : List Call → List Bytes × LineSplitter
  | [] => ([], splitter)
  | call :: calls =>
    let (lines, splitter) := splitter.call call
    let (others, splitter) := after splitter calls
    (lines ++ others, splitter)

/-- The line end that a request for an unfinished line stands for. -/
def mark (since : Bytes) : Bytes := if since = [] then [] else ['\n'.toUInt8]

/-- The text that some calls stand for, when `since` came after the last line end or request. -/
def textSince : (since : Bytes) → List Call → Bytes
  | _, [] => []
  | since, .write chunk :: calls => chunk ++ textSince (unended (since ++ chunk)) calls
  | since, .sync :: calls => mark since ++ textSince [] calls

/-- The text that some calls stand for. -/
def text (calls : List Call) : Bytes := textSince [] calls

/-! ## One call -/

theorem cut_open {bytes : Bytes} : '\n'.toUInt8 ∉ (cut bytes).1 := by
  induction bytes with
  | nil => exact List.not_mem_nil
  | cons byte rest ih =>
    rw [cut]
    split
    · exact List.not_mem_nil
    · rename_i other
      exact List.not_mem_cons_of_ne_of_not_mem (Ne.symm other) ih

theorem breakUp_fallsInto {pending : Bytes} (open' : '\n'.toUInt8 ∉ pending) (chunk : Bytes) :
    FallsInto (pending ++ chunk) (breakUp pending chunk).1 (breakUp pending chunk).2 := by
  fun_induction breakUp pending chunk with
  | case1 pending chunk line ended =>
    have here : '\n'.toUInt8 ∉ line := by simpa [ended] using @cut_open chunk
    obtain rfl := cut_of_none ended
    exact .of_open (List.not_mem_append open' here)
  | case2 pending chunk line rest ended lines left broken ih =>
    have here : '\n'.toUInt8 ∉ line := by simpa [ended] using @cut_open chunk
    rw [cut_of_some ended, ← List.append_assoc]
    rw [broken, List.nil_append] at ih
    exact .line (List.not_mem_append open' here) (ih List.not_mem_nil)

variable {splitter : LineSplitter}

/-- The bytes that a call adds to the text. -/
def Call.bytes (since : Bytes) : Call → Bytes
  | write chunk => chunk
  | sync => mark since

theorem call_fallsInto (open' : '\n'.toUInt8 ∉ splitter.pending) (call : Call) :
    FallsInto (splitter.pending ++ call.bytes splitter.pending) (splitter.call call).1
      (splitter.call call).2.pending := by
  cases call with
  | write chunk => exact breakUp_fallsInto open' chunk
  | sync =>
    rw [LineSplitter.call, sync, Call.bytes, mark]
    split
    · rw [List.append_nil]
      exact .of_open open'
    · exact .line open' (.of_open List.not_mem_nil)

/-- What is pending is the text since the last line end or request. -/
theorem textSince_cons (open' : '\n'.toUInt8 ∉ splitter.pending) (call : Call) (calls : List Call) :
    textSince splitter.pending (call :: calls) =
      call.bytes splitter.pending ++ textSince (splitter.call call).2.pending calls := by
  cases call with
  | write chunk =>
    have falls := call_fallsInto open' (.write chunk)
    rw [textSince, ← falls.unended]
    rfl
  | sync =>
    rw [textSince, LineSplitter.call, sync]
    split
    · rename_i none
      rw [none]
      rfl
    · rfl

/-! ## Any number of calls -/

theorem after_fallsInto (open' : '\n'.toUInt8 ∉ splitter.pending) (calls : List Call) :
    FallsInto (splitter.pending ++ textSince splitter.pending calls) (splitter.after calls).1
      (splitter.after calls).2.pending := by
  induction calls generalizing splitter with
  | nil =>
    rw [textSince, List.append_nil]
    exact .of_open open'
  | cons call calls ih =>
    have first := call_fallsInto open' call
    rw [textSince_cons open', ← List.append_assoc]
    exact first.append (ih first.rest)

theorem text_chunks (chunks : List Bytes) : text (chunks.map .write) = chunks.flatten := by
  have all (since : Bytes) : textSince since (chunks.map .write) = chunks.flatten := by
    induction chunks generalizing since with
    | nil => rfl
    | cons chunk chunks ih => rw [List.map_cons, textSince, ih, List.flatten_cons]
  exact all []

end LineSplitter

/-- A splitter hands on the lines of the text that its calls stand for and keeps the rest, however the
text is cut into chunks. -/
theorem lines_do_not_depend_on_chunks (calls : List LineSplitter.Call) :
    let result := LineSplitter.after {} calls
    (LineSplitter.text calls).splitOn '\n'.toUInt8 = result.1 ++ [result.2.pending] ∧
    (∀ chunks : List Bytes, LineSplitter.text (chunks.map .write) = chunks.flatten) ∧
    (∀ others, LineSplitter.text others = LineSplitter.text calls →
      LineSplitter.after {} others = result) ∧
    ∀ (splitter : LineSplitter) (chunk : Bytes), (splitter.write chunk).1 = ⟨chunk.length, none⟩ := by
  have splits (calls : List LineSplitter.Call) : (LineSplitter.text calls).splitOn '\n'.toUInt8 =
      (LineSplitter.after {} calls).1 ++ [(LineSplitter.after {} calls).2.pending] :=
    (@LineSplitter.after_fallsInto {} List.not_mem_nil calls).splitOn
  refine ⟨splits calls, LineSplitter.text_chunks, fun others same => ?_, fun splitter chunk => rfl⟩
  have both := splits others
  rw [same, splits calls] at both
  obtain ⟨lines, pending⟩ := List.append_inj' both rfl
  exact Prod.ext lines.symm (congrArg LineSplitter.mk (List.singleton_inj.mp pending).symm)

end MiniPascal
