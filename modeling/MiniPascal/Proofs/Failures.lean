import MiniPascal.Machine.IntegerSource
import MiniPascal.Proofs.Output

/-! # Where failures come from

A console fails with what a device says, with what a buffer remembers of an earlier failure, or because
a device has taken less than it was offered. The next integer fails to come with a failure of the console,
of a stream or of a script, or because there is no more input. So if all of these failures have a
property, every failure that is reported has it.
-/

namespace MiniPascal

variable {P : Failure → Prop}

/-- All failures of a device have a property. -/
structure Manner.FailsWith (P : Failure → Prop) (manner : Manner) : Prop where
  refused : ∀ {number accepted offered failure},
    manner.write number accepted offered = .refused failure → P failure
  took : ∀ {number accepted offered count failure},
    manner.write number accepted offered = .took count (some failure) → P failure
  flush : ∀ {number failure}, manner.flush number = some failure → P failure

namespace Devices

variable {devices : Devices} {number : Nat}

theorem failure_write (fails : ∀ manner ∈ devices.manner? number, manner.FailsWith P)
    (bytes : Bytes) : ∀ failure ∈ (devices.write number bytes).1.failure, P failure := by
  intro failure reported
  cases here : devices.all[number]? with
  | none => simp [write, here] at reported
  | some device =>
    have manner := fails device.manner (by simp [manner?, here])
    cases answer : device.manner.write device.writes device.accepted bytes.length with
    | refused reason =>
      obtain rfl : reason = failure := by simpa [write, here, answer] using reported
      exact manner.refused answer
    | took count reason =>
      obtain rfl : reason = some failure := by simpa [write, here, answer] using reported
      exact manner.took answer

theorem failure_flush (fails : ∀ manner ∈ devices.manner? number, manner.FailsWith P) :
    ∀ failure ∈ (devices.flush number).1, P failure := by
  intro failure reported
  cases here : devices.all[number]? with
  | none => simp [flush, here] at reported
  | some device =>
    have manner := fails device.manner (by simp [manner?, here])
    exact manner.flush (by simpa [flush, here] using reported)

end Devices

namespace Console

/-- All failures of a console have a property. -/
structure FailsWith (P : Failure → Prop) (console : Console) : Prop where
  devices : ∀ number ∈ console.numbers, ∀ manner ∈ console.devices.manner? number, manner.FailsWith P
  stuck : ∀ outlet ∈ console.outlets, ∀ failure ∈ outlet.stuck, P failure
  short : P .shortWrite

/-- What an operation of a console may report, and what it leaves. -/
structure Accounts (P : Failure → Prop) (console : Console) (failure : Option Failure)
    (after : Console) : Prop where
  reported : ∀ reported ∈ failure, P reported
  numbers : after.numbers = console.numbers
  manner : ∀ number, after.devices.manner? number = console.devices.manner? number
  stuck : ∀ outlet ∈ after.outlets, ∀ failure ∈ outlet.stuck, P failure

variable {console middle after : Console} {failure : Option Failure}

theorem Accounts.failsWith (accounts : Accounts P console failure after)
    (fails : console.FailsWith P) : after.FailsWith P := by
  refine ⟨fun number member manner found => ?_, accounts.stuck, fails.short⟩
  rw [accounts.numbers] at member
  rw [accounts.manner] at found
  exact fails.devices number member manner found

theorem unreported : ∀ failure ∈ (none : Option Failure), P failure :=
  fun failure member => absurd member (Option.not_mem_none failure)

theorem Accounts.refl (fails : console.FailsWith P) : Accounts P console none console :=
  ⟨unreported, rfl, fun _ => rfl, fails.stuck⟩

theorem Accounts.trans {failure later : Option Failure} (first : Accounts P console failure middle)
    (second : Accounts P middle later after) : Accounts P console later after :=
  ⟨second.reported, second.numbers.trans first.numbers,
    fun number => (second.manner number).trans (first.manner number), second.stuck⟩

/-! ## One outlet -/

section Single

variable {outlet changed : Outlet} {devices later : Devices}

theorem FailsWith.single (fails : FailsWith P ⟨[outlet], devices⟩) :
    (∀ manner ∈ devices.manner? outlet.number, manner.FailsWith P) ∧
      ∀ failure ∈ outlet.stuck, P failure :=
  ⟨fails.devices _ (List.mem_singleton_self _), fails.stuck _ (List.mem_singleton_self _)⟩

theorem Accounts.single (reported : ∀ reported ∈ failure, P reported)
    (same : changed.number = outlet.number)
    (manner : ∀ number, later.manner? number = devices.manner? number)
    (stuck : ∀ failure ∈ changed.stuck, P failure) :
    Accounts P ⟨[outlet], devices⟩ failure ⟨[changed], later⟩ := by
  refine ⟨reported, congrArg (fun n => [n]) same, manner, fun found member => ?_⟩
  rw [List.mem_singleton.mp member]
  exact stuck

end Single

end Console

namespace Buffer

open Console

variable {buffer : Buffer} {devices : Devices}

theorem flush_accounts (fails : FailsWith P ⟨[.buffered buffer], devices⟩) :
    Accounts P ⟨[.buffered buffer], devices⟩ (buffer.flush devices).1
      ⟨[.buffered (buffer.flush devices).2.1], (buffer.flush devices).2.2⟩ := by
  obtain ⟨manner, stuck⟩ := fails.single
  cases clear : buffer.stuck with
  | some failure =>
    have known : P failure := stuck failure clear
    have same : buffer.flush devices = (some failure, buffer, devices) := by simp [flush, clear]
    rw [same]
    refine .single ?_ rfl (fun _ => rfl) stuck
    rintro _ ⟨⟩
    exact known
  | none =>
    by_cases empty : buffer.pending = []
    · rw [flush_of_empty clear empty]
      exact .refl fails
    · rw [flush_of_pending clear empty]
      have reported : ∀ failure ∈ shortfall (devices.write buffer.device buffer.pending).1
          buffer.pending.length, P failure := by
        unfold shortfall
        split
        · rintro _ ⟨⟩
          exact fails.short
        · exact Devices.failure_write manner _
      exact .single reported rfl (Devices.manner?_write _ _ _) reported

theorem writeMore_accounts (fuel : Nat) : ∀ (buffer : Buffer) (devices : Devices) (accepted : Nat)
    (bytes : Bytes), FailsWith P ⟨[.buffered buffer], devices⟩ →
    Accounts P ⟨[.buffered buffer], devices⟩ (buffer.writeMore devices fuel accepted bytes).1.failure
      ⟨[.buffered (buffer.writeMore devices fuel accepted bytes).2.1],
        (buffer.writeMore devices fuel accepted bytes).2.2⟩ := by
  induction fuel with
  | zero =>
    intro buffer devices accepted bytes fails
    refine .single ?_ rfl (fun _ => rfl) fails.single.2
    rintro _ ⟨⟩
    exact fails.short
  | succ fuel ih =>
    intro buffer devices accepted bytes fails
    obtain ⟨manner, stuck⟩ := fails.single
    cases clear : buffer.stuck with
    | some failure =>
      have known : P failure := stuck failure clear
      have same : buffer.writeMore devices (fuel + 1) accepted bytes =
          (⟨accepted, some failure⟩, buffer, devices) := by simp [writeMore, clear]
      rw [same]
      refine .single ?_ rfl (fun _ => rfl) stuck
      rintro _ ⟨⟩
      exact known
    | none =>
      by_cases fits : bytes.length ≤ capacity - buffer.pending.length
      · rw [writeMore_of_fits clear fits]
        exact .single unreported rfl (fun _ => rfl) unreported
      have long := Nat.not_le.mp fits
      by_cases empty : buffer.pending = []
      · rw [empty, List.length_nil, Nat.sub_zero] at long
        rw [writeMore_of_empty clear empty long]
        have reported := Devices.failure_write manner bytes
        have direct : Accounts P ⟨[.buffered buffer], devices⟩ none
            ⟨[.buffered ⟨buffer.device, [], (devices.write buffer.device bytes).1.failure⟩],
              (devices.write buffer.device bytes).2⟩ :=
          .single unreported rfl (Devices.manner?_write _ _ _) reported
        exact direct.trans (ih _ _ _ _ (direct.failsWith fails))
      · rw [writeMore_of_full clear empty long]
        have filled : Accounts P ⟨[.buffered buffer], devices⟩ none
            ⟨[.buffered (buffer.filled bytes)], devices⟩ :=
          .single unreported rfl (fun _ => rfl) stuck
        have flushed := filled.trans (flush_accounts (filled.failsWith fails))
        exact flushed.trans (ih _ _ _ _ (flushed.failsWith fails))

end Buffer

namespace Outlet

open Console

variable {outlet : Outlet} {devices : Devices}

theorem write_accounts (fails : FailsWith P ⟨[outlet], devices⟩) (bytes : Bytes) :
    Accounts P ⟨[outlet], devices⟩ (outlet.write devices bytes).1.failure
      ⟨[(outlet.write devices bytes).2.1], (outlet.write devices bytes).2.2⟩ := by
  cases outlet with
  | direct device | flushing device =>
    exact .single (Devices.failure_write fails.single.1 bytes) rfl (Devices.manner?_write _ _ _) unreported
  | buffered buffer => exact Buffer.writeMore_accounts (2 * bytes.length + 3) _ _ 0 bytes fails

theorem flush_accounts (fails : FailsWith P ⟨[outlet], devices⟩) :
    Accounts P ⟨[outlet], devices⟩ (outlet.flush devices).1
      ⟨[(outlet.flush devices).2.1], (outlet.flush devices).2.2⟩ := by
  cases outlet with
  | direct device => exact .refl fails
  | flushing device =>
    exact .single (Devices.failure_flush fails.single.1) rfl (Devices.manner?_flush _ _) unreported
  | buffered buffer => exact Buffer.flush_accounts fails

end Outlet

/-! ## Several outlets -/

namespace Console

variable {outlet changed : Outlet} {rest others : List Outlet} {devices middle later : Devices}
variable {failure : Option Failure}

theorem FailsWith.head (fails : FailsWith P ⟨outlet :: rest, devices⟩) :
    FailsWith P ⟨[outlet], devices⟩ := by
  refine ⟨fun number member => ?_, fun found member => ?_, fails.short⟩
  · exact fails.devices number (List.mem_cons.mpr (.inl (List.mem_singleton.mp member)))
  · exact fails.stuck found (List.mem_cons.mpr (.inl (List.mem_singleton.mp member)))

theorem FailsWith.tail (fails : FailsWith P ⟨outlet :: rest, devices⟩)
    (manner : ∀ number, middle.manner? number = devices.manner? number) :
    FailsWith P ⟨rest, middle⟩ := by
  refine ⟨fun number member found => ?_, fun found member => ?_, fails.short⟩
  · rw [manner]
    exact fails.devices number (List.mem_cons_of_mem _ member) found
  · exact fails.stuck found (List.mem_cons_of_mem _ member)

/-- The first outlet and the others after it, whichever of the failures counts. -/
theorem Accounts.cons {first second : Option Failure}
    (head : Accounts P ⟨[outlet], devices⟩ first ⟨[changed], middle⟩)
    (tail : Accounts P ⟨rest, middle⟩ second ⟨others, later⟩)
    (reported : ∀ reported ∈ failure, P reported) :
    Accounts P ⟨outlet :: rest, devices⟩ failure ⟨changed :: others, later⟩ := by
  have same : changed.number = outlet.number := List.singleton_inj.mp head.numbers
  refine ⟨reported, List.cons_eq_cons.mpr ⟨same, tail.numbers⟩,
    fun number => (tail.manner number).trans (head.manner number), fun found member => ?_⟩
  obtain rfl | member := List.mem_cons.mp member
  · exact head.stuck found (List.mem_singleton_self _)
  · exact tail.stuck found member

theorem writeAll_accounts (bytes : Bytes) (outlets : List Outlet) : ∀ devices : Devices,
    FailsWith P ⟨outlets, devices⟩ →
    Accounts P ⟨outlets, devices⟩ (writeAll bytes devices outlets).1.failure
      ⟨(writeAll bytes devices outlets).2.1, (writeAll bytes devices outlets).2.2⟩ := by
  induction outlets with
  | nil =>
    intro devices fails
    exact .refl fails
  | cons outlet rest ih =>
    intro devices fails
    have head := outlet.write_accounts fails.head bytes
    have tail := fails.tail head.manner
    rcases written : outlet.write devices bytes with ⟨answer, changed, middle⟩
    rw [written] at head tail
    simp only [writeAll, written]
    split
    · exact head.cons (.refl tail) head.reported
    · split
      · refine head.cons (.refl tail) ?_
        rintro _ ⟨⟩
        exact fails.short
      · have others := ih _ tail
        exact head.cons others others.reported

theorem flushAll_accounts (outlets : List Outlet) : ∀ devices : Devices,
    FailsWith P ⟨outlets, devices⟩ →
    Accounts P ⟨outlets, devices⟩ (flushAll devices outlets).1
      ⟨(flushAll devices outlets).2.1, (flushAll devices outlets).2.2⟩ := by
  induction outlets with
  | nil =>
    intro devices fails
    exact .refl fails
  | cons outlet rest ih =>
    intro devices fails
    have head := outlet.flush_accounts fails.head
    have others := ih _ (fails.tail head.manner)
    rw [flushAll_cons]
    refine head.cons others fun reported either => ?_
    obtain first | ⟨_, second⟩ := Option.or_eq_some_iff.mp either
    · exact head.reported reported first
    · exact others.reported reported second

variable {console : Console}

theorem write_accounts (fails : console.FailsWith P) (bytes : Bytes) :
    Accounts P console (console.write bytes).1.failure (console.write bytes).2 := by
  obtain ⟨_ | ⟨outlet, _ | ⟨second, rest⟩⟩, devices⟩ := console
  · exact writeAll_accounts bytes [] devices fails
  · exact outlet.write_accounts fails bytes
  · exact writeAll_accounts bytes (outlet :: second :: rest) devices fails

theorem flush_accounts (fails : console.FailsWith P) :
    Accounts P console console.flush.1 console.flush.2 :=
  flushAll_accounts console.outlets console.devices fails

theorem FailsWith.trace (fails : console.FailsWith P) (line : Text) :
    (console.trace line).FailsWith P :=
  ⟨fails.devices, fails.stuck, fails.short⟩

end Console

/-! ## Integers -/

/-- All failures of the streams of an input have a property. -/
structure Input.FailsWith (P : Failure → Prop) (input : Input) : Prop where
  current : ∀ stream ∈ input.current, ∀ failure ∈ stream.failing, P failure
  queue : ∀ stream ∈ input.queue, ∀ failure ∈ stream.failing, P failure
  ending : P .endOfInput

namespace Input

variable {input : Input}

/-- How reading a line may fail, and what it leaves. -/
structure Accounts (P : Failure → Prop) (result : Except Failure (List Char) × Input) : Prop where
  reported : ∀ failure, result.1 = .error failure → P failure
  failsWith : result.2.FailsWith P

/-- How reading from one stream may come out. -/
def Reading.Accounts (P : Failure → Prop) : Reading → Prop
  | line _ input => input.FailsWith P
  | failed failure input => P failure ∧ input.FailsWith P
  | ended input => input.FailsWith P

theorem readStream_accounts (fails : input.FailsWith P) (stream : Stream)
    (streams : ∀ failure ∈ stream.failing, P failure) : (input.readStream stream).Accounts P := by
  have rest : ∀ later ∈ some stream.readPiece.2.2, ∀ failure ∈ later.failing, P failure := by
    rintro _ ⟨⟩
    exact streams
  unfold readStream
  dsimp only
  split
  · exact ⟨rest, fails.queue, fails.ending⟩
  · split
    · rename_i failure failing
      exact ⟨streams failure failing, rest, fails.queue, fails.ending⟩
    · split
      · exact ⟨nofun, fails.queue, fails.ending⟩
      · exact ⟨nofun, fails.queue, fails.ending⟩

theorem readQueue_accounts (queue : List Stream) : ∀ input : Input, P .endOfInput →
    (∀ stream ∈ queue, ∀ failure ∈ stream.failing, P failure) →
    (∀ stream ∈ input.current, ∀ failure ∈ stream.failing, P failure) →
    Accounts P (input.readQueue queue) := by
  induction queue with
  | nil =>
    intro input ending _ current
    refine ⟨?_, current, nofun, ending⟩
    rintro _ ⟨⟩
    exact ending
  | cons stream queue ih =>
    intro input ending streams _
    have first := streams stream List.mem_cons_self
    have others : ∀ later ∈ queue, ∀ failure ∈ later.failing, P failure :=
      fun later member => streams later (List.mem_cons_of_mem _ member)
    have turned : (input.turnTo stream queue).FailsWith P := by
      refine ⟨?_, others, ending⟩
      rintro _ ⟨⟩
      exact first
    have accounts := readStream_accounts turned stream first
    unfold readQueue
    split
    · rename_i read
      rw [read] at accounts
      exact ⟨nofun, accounts⟩
    · rename_i read
      rw [read] at accounts
      refine ⟨?_, accounts.2⟩
      rintro _ ⟨⟩
      exact accounts.1
    · rename_i read
      rw [read] at accounts
      exact ih _ ending others accounts.current

theorem readLine_accounts (fails : input.FailsWith P) : Accounts P input.readLine := by
  unfold readLine
  split
  · exact readQueue_accounts _ _ fails.ending fails.queue fails.current
  · rename_i stream here
    have accounts := readStream_accounts fails stream (fails.current stream here)
    split
    · rename_i read
      rw [read] at accounts
      exact ⟨nofun, accounts⟩
    · rename_i read
      rw [read] at accounts
      refine ⟨?_, accounts.2⟩
      rintro _ ⟨⟩
      exact accounts.1
    · rename_i read
      rw [read] at accounts
      exact readQueue_accounts _ _ fails.ending accounts.queue accounts.current

end Input

namespace LineReader

theorem display_accounts (reader : LineReader) (fails : reader.console.FailsWith P) (text : Text) :
    Console.Accounts P reader.console (reader.display text).1 (reader.display text).2.console := by
  have written := Console.write_accounts fails text.bytes
  unfold display
  dsimp only
  split
  · rename_i failure reported
    rw [reported] at written
    exact written
  · exact written.trans (Console.flush_accounts (written.failsWith fails))

theorem input_display (reader : LineReader) (text : Text) :
    (reader.display text).2.input = reader.input := by
  unfold display
  dsimp only
  split <;> rfl

theorem input_of_display {reader shown : LineReader} {failure : Option Failure} {text : Text}
    (shows : reader.display text = (failure, shown)) : shown.input = reader.input := by
  have kept := reader.input_display text
  rw [shows] at kept
  exact kept

/-- The ways in which prompting may come out. -/
inductive Asked (prompt : Text) : Nat → LineReader → Except Failure Int64 × LineReader → Prop
  | spent (reader : LineReader) : Asked prompt 0 reader (.error .endOfInput, reader)
  | unshown {fuel : Nat} {reader prompted : LineReader} {failure : Failure}
      (shows : reader.display prompt = (some failure, prompted)) :
      Asked prompt (fuel + 1) reader (.error failure, prompted)
  | unread {fuel : Nat} {reader prompted : LineReader} {failure : Failure} {rest : Input}
      (shows : reader.display prompt = (none, prompted))
      (reads : reader.input.readLine = (.error failure, rest)) :
      Asked prompt (fuel + 1) reader (.error failure, { prompted with input := rest })
  | answered {fuel : Nat} {reader prompted : LineReader} {line : List Char} {rest : Input} {n : Int64}
      (shows : reader.display prompt = (none, prompted))
      (reads : reader.input.readLine = (.ok line, rest)) (holds : lineInteger? line = some n) :
      Asked prompt (fuel + 1) reader (.ok n, { prompted with input := rest })
  | unretried {fuel : Nat} {reader prompted retried : LineReader} {line : List Char} {rest : Input}
      {failure : Failure} (shows : reader.display prompt = (none, prompted))
      (reads : reader.input.readLine = (.ok line, rest)) (holds : lineInteger? line = none)
      (retries : display { prompted with input := rest } retryMessage.line = (some failure, retried)) :
      Asked prompt (fuel + 1) reader (.error failure, retried)
  | retried {fuel : Nat} {reader prompted retried : LineReader} {line : List Char} {rest : Input}
      {result : Except Failure Int64 × LineReader} (shows : reader.display prompt = (none, prompted))
      (reads : reader.input.readLine = (.ok line, rest)) (holds : lineInteger? line = none)
      (retries : display { prompted with input := rest } retryMessage.line = (none, retried))
      (later : Asked prompt fuel retried result) : Asked prompt (fuel + 1) reader result

theorem readWithin_asked (prompt : Text) (fuel : Nat) : ∀ reader : LineReader,
    Asked prompt fuel reader (readWithin fuel prompt reader) := by
  induction fuel with
  | zero => exact .spent
  | succ fuel ih =>
    intro reader
    rcases shows : reader.display prompt with ⟨_ | failure, prompted⟩
    · have kept := input_of_display shows
      rcases reads : prompted.input.readLine with ⟨failure | line, rest⟩
      · simp only [readWithin, shows, reads]
        exact .unread shows (kept ▸ reads)
      · simp only [readWithin, shows, reads]
        split
        · rename_i holds
          exact .answered shows (kept ▸ reads) holds
        · rename_i holds
          split
          · rename_i retries
            exact .unretried shows (kept ▸ reads) holds retries
          · rename_i retries
            exact .retried shows (kept ▸ reads) holds retries (ih _)
    · simp only [readWithin, shows]
      exact .unshown shows

theorem Asked.eq {prompt : Text} {fuel : Nat} {reader : LineReader}
    {result : Except Failure Int64 × LineReader} (asked : Asked prompt fuel reader result) :
    readWithin fuel prompt reader = result := by
  induction asked with
  | spent => rfl
  | unshown shows => simp only [readWithin, shows]
  | unread shows reads => simp only [readWithin, shows, input_of_display shows, reads]
  | answered shows reads holds => simp only [readWithin, shows, input_of_display shows, reads, holds]
  | unretried shows reads holds retries =>
    simp only [readWithin, shows, input_of_display shows, reads, holds, retries]
  | retried shows reads holds retries _ ih =>
    simp only [readWithin, shows, input_of_display shows, reads, holds, retries, ih]

/-- Prompting fails as the console or the input does. -/
theorem Asked.accounts {prompt : Text} {fuel : Nat} {reader : LineReader}
    {result : Except Failure Int64 × LineReader} (asked : Asked prompt fuel reader result)
    (console : reader.console.FailsWith P) (source : reader.input.FailsWith P) :
    (∀ failure, result.1 = .error failure → P failure) ∧
      result.2.console.FailsWith P ∧ result.2.input.FailsWith P := by
  have fails {failure : Failure} (known : P failure) :
      ∀ reported, Except.error failure = (.error reported : Except Failure Int64) → P reported := by
    rintro _ ⟨⟩
    exact known
  induction asked with
  | spent => exact ⟨fails source.ending, console, source⟩
  | @unshown _ reader _ failure shows =>
    have accounts := reader.display_accounts console prompt
    rw [shows] at accounts
    exact ⟨fails (accounts.reported failure rfl), accounts.failsWith console,
      input_of_display shows ▸ source⟩
  | @unread _ reader _ failure _ shows reads =>
    have accounts := reader.display_accounts console prompt
    have taken := Input.readLine_accounts source
    rw [shows] at accounts
    rw [reads] at taken
    exact ⟨fails (taken.reported failure rfl), accounts.failsWith console, taken.failsWith⟩
  | @answered _ reader _ _ _ _ shows reads =>
    have accounts := reader.display_accounts console prompt
    have taken := Input.readLine_accounts source
    rw [shows] at accounts
    rw [reads] at taken
    exact ⟨nofun, accounts.failsWith console, taken.failsWith⟩
  | @unretried _ reader prompted _ _ rest failure shows reads _ retries =>
    have accounts := reader.display_accounts console prompt
    have taken := Input.readLine_accounts source
    rw [shows] at accounts
    rw [reads] at taken
    have prompts := accounts.failsWith console
    have again := display_accounts { prompted with input := rest } prompts retryMessage.line
    rw [retries] at again
    exact ⟨fails (again.reported failure rfl), again.failsWith prompts,
      input_of_display retries ▸ taken.failsWith⟩
  | @retried _ reader prompted _ _ rest _ shows reads _ retries _ ih =>
    have accounts := reader.display_accounts console prompt
    have taken := Input.readLine_accounts source
    rw [shows] at accounts
    rw [reads] at taken
    have prompts := accounts.failsWith console
    have again := display_accounts { prompted with input := rest } prompts retryMessage.line
    rw [retries] at again
    exact ih (again.failsWith prompts) (input_of_display retries ▸ taken.failsWith)

end LineReader

namespace Script

variable {script : Script} {prompt : Text}

theorem ending_read : (script.read prompt).2.ending = script.ending := by
  obtain ⟨_ | ⟨n, integers⟩⟩ := script <;> rfl

theorem eq_ending_of_read {failure : Failure} (fails : (script.read prompt).1 = .error failure) :
    failure = script.ending := by
  obtain ⟨_ | ⟨n, integers⟩⟩ := script
  · exact (Except.error.inj fails).symm
  · cases fails

end Script

end MiniPascal
