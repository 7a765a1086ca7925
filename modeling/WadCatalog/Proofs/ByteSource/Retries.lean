import Mathlib.Logic.Function.Iterate
import WadCatalog.Proofs.ByteSource.Delivery

/-
  The loop that fills a buffer, and what it has to do with how a reader delivers.

  `Reader.fill` describes a read by recursion on what the reader will do.  A program has a loop
  instead: it owns a buffer, counts the bytes that came, and calls the reader again until the buffer
  is full, or a call brings nothing or fails.  This module sets that loop up turn by turn
  (`Filling.turn`), for readers that may go on in any way for ever, and shows three things of it.

  1. **What is in the buffer** (`Filling.Follows`).  After any number of turns the bytes that came are
     the bytes from the start on, nothing lost and nothing twice, the rest of the buffer is as it was,
     and the cursor of the reader is behind them.  One turn keeps this, hence all turns do.
  2. **The loop ends** (`Filling.exists_isOver`).  The room in the buffer is no measure for it, since
     an interruption takes none of it.  But if interruptions come to an end, then some turn takes room
     or stops the loop: the induction on the room has one on the number of interruptions inside.
  3. **The recursion is the loop** (`Filling.outlook_turn`).  What a read will have delivered in the
     end does not change from one turn to the next.

  So all that is said about a read, in one call or in several (`readEach`), is said about the loop.
-/

namespace WadCatalog

namespace Bytes

/-- Writing behind what was written is writing both. -/
theorem overwrite_append (buffer front back : Bytes) :
    (overwrite buffer front).take front.length ++
        overwrite ((overwrite buffer front).drop front.length) back =
      overwrite buffer (front ++ back) := by
  rw [take_overwrite, drop_overwrite]
  simp only [overwrite, List.drop_drop, List.length_append, List.append_assoc]

end Bytes

namespace Reader

/-! ## The recursion, delivery by delivery -/

/-- How the calls of a reader go that has the given deliveries left: behind their end, every call
delivers all there is room for. -/
def scheduleOf (deliveries : List Delivery) (width : Nat) : Nat → Delivery :=
  fun call => deliveries[call]?.getD (.atMost width)

section Fill

variable {content : Content} {deliveries rest : List Delivery} {cursor wanted : Nat}

theorem fill_zero : fill content deliveries cursor 0 = ([], deliveries) := by
  cases deliveries <;> simp [fill]

theorem fill_interrupted (hwanted : wanted ≠ 0) :
    fill content (.interrupted :: rest) cursor wanted = fill content rest cursor wanted := by
  rw [fill]
  exact hwanted

theorem fill_failed (hwanted : wanted ≠ 0) :
    fill content (.failed :: rest) cursor wanted = ([], rest) := by
  rw [fill]
  exact hwanted

theorem fill_atMost (hwanted : wanted ≠ 0) {count : Nat} {part : Bytes}
    (hpart : content.slice cursor (min count wanted) = part) :
    fill content (.atMost count :: rest) cursor wanted =
      if part = [] then ([], rest)
      else (part ++ (fill content rest (cursor + part.length) (wanted - part.length)).1,
        (fill content rest (cursor + part.length) (wanted - part.length)).2) := by
  rw [fill, hpart]
  exact hwanted

theorem fill_nil : fill content [] cursor wanted = (content.slice cursor wanted, []) := by
  cases wanted with
  | zero => simp [fill, Content.slice_eq, Bytes.slice]
  | succ wanted => simp [fill]

/-- Behind the end of the deliveries stand deliveries of all there is room for. -/
theorem fill_nil_eq {width : Nat} (hwanted : wanted ≠ 0) (hwidth : wanted ≤ width) :
    fill content [] cursor wanted = fill content [.atMost width] cursor wanted := by
  rw [fill_atMost hwanted rfl, fill_nil, fill_nil, Nat.min_eq_right hwidth]
  split
  next hempty => rw [hempty]
  next hne =>
    -- the part is all there is, so nothing is behind it
    have hrest : content.slice (cursor + (content.slice cursor wanted).length)
        (wanted - (content.slice cursor wanted).length) = [] := by
      apply List.length_eq_zero_iff.1
      rw [Content.length_slice, Content.length_slice]
      omega
    rw [hrest, List.append_nil]

/-- A read goes on with the delivery that is scheduled next. -/
theorem fill_drop (content : Content) (deliveries : List Delivery) (cursor : Nat) {width : Nat}
    (hwanted : wanted ≠ 0) (hwidth : wanted ≤ width) (calls : Nat) :
    fill content (deliveries.drop calls) cursor wanted =
      fill content (scheduleOf deliveries width calls :: deliveries.drop (calls + 1)) cursor
        wanted := by
  rcases Nat.lt_or_ge calls deliveries.length with hlt | hge
  · rw [scheduleOf, List.getElem?_eq_getElem hlt, Option.getD_some,
      ← List.drop_eq_getElem_cons hlt]
  · rw [scheduleOf, List.getElem?_eq_none hge, Option.getD_none, List.drop_eq_nil_of_le hge,
      List.drop_eq_nil_of_le (Nat.le_succ_of_le hge)]
    exact fill_nil_eq hwanted hwidth

end Fill

/-! ## The loop -/

/-- A buffer that is being filled by calls of a reader. -/
structure Filling where
  /-- The buffer as it is now. -/
  buffer : Bytes
  /-- How many of its bytes have come. -/
  total : Nat
  /-- Where the next byte comes from. -/
  cursor : Nat
  /-- How many calls there were. -/
  calls : Nat
  /-- Whether the last call brought nothing or failed. -/
  stopped : Bool
  deriving DecidableEq

namespace Filling

/-- Before the first call. -/
def start (buffer : Bytes) (cursor : Nat) : Filling := ⟨buffer, 0, cursor, 0, false⟩

/-- How many bytes are still to come. -/
def room (filling : Filling) : Nat := filling.buffer.length - filling.total

/-- Whether there are no more calls. -/
def isOver (filling : Filling) : Bool := filling.stopped || filling.room == 0

/-- After one more call that brought nothing. -/
def called (filling : Filling) : Filling := { filling with calls := filling.calls + 1 }

/-- After a part has been written behind the bytes that came before. -/
def receive (filling : Filling) (part : Bytes) : Filling :=
  { filling with
    buffer := filling.buffer.take filling.total ++
      Bytes.overwrite (filling.buffer.drop filling.total) part
    total := filling.total + part.length
    cursor := filling.cursor + part.length }

/-- One turn of the loop, with a reader whose calls go as scheduled. -/
def turn (content : Content) (schedule : Nat → Delivery) (filling : Filling) : Filling :=
  if filling.isOver then filling
  else
    match schedule filling.calls with
    | .interrupted => filling.called
    | .failed => { filling.called with stopped := true }
    | .atMost count =>
      let part := content.slice filling.cursor (min count filling.room)
      if part = [] then { filling.called with stopped := true } else filling.called.receive part

/-- Several turns of the loop. -/
def turns (content : Content) (schedule : Nat → Delivery) (count : Nat) (filling : Filling) :
    Filling :=
  (turn content schedule)^[count] filling

variable {content : Content} {schedule : Nat → Delivery} {filling : Filling} {buffer : Bytes}
  {cursor : Nat}

theorem turns_succ (count : Nat) : turns content schedule (count + 1) filling =
    turns content schedule count (filling.turn content schedule) :=
  Function.iterate_succ_apply _ _ _

theorem turns_add (count more : Nat) : turns content schedule (count + more) filling =
    turns content schedule count (turns content schedule more filling) :=
  Function.iterate_add_apply _ _ _ _

theorem isOver_eq_false_iff :
    filling.isOver = false ↔ filling.stopped = false ∧ filling.room ≠ 0 := by
  rw [isOver, Bool.or_eq_false_iff, beq_eq_false_iff_ne]

theorem turn_of_isOver (h : filling.isOver = true) : filling.turn content schedule = filling :=
  if_pos h

/-- **All that a turn can do**, if the loop is not over: nothing, on an interruption; stop the loop,
because of the call or because there are no more bytes; or receive a part. -/
theorem turn_cases (content : Content) (schedule : Nat → Delivery) {filling : Filling}
    (h : filling.isOver = false) :
    (schedule filling.calls = .interrupted ∧ filling.turn content schedule = filling.called) ∨
    ((¬ (schedule filling.calls).IsProgress ∨ content.size ≤ filling.cursor) ∧
      filling.turn content schedule = { filling.called with stopped := true }) ∨
    ∃ part, part ≠ [] ∧ part <+: content.bytes.slice filling.cursor filling.room ∧
      filling.turn content schedule = filling.called.receive part := by
  obtain ⟨-, hroom⟩ := isOver_eq_false_iff.1 h
  have hbegins : ∀ count, content.slice filling.cursor (min count filling.room) <+:
      content.bytes.slice filling.cursor filling.room := by
    intro count
    rw [Content.slice_eq]
    exact List.take_prefix_take_left (Nat.min_le_right _ _)
  rw [turn, if_neg (Bool.eq_false_iff.1 h)]
  cases hcall : schedule filling.calls with
  | interrupted => exact .inl ⟨rfl, rfl⟩
  | failed => exact .inr (.inl ⟨.inl id, rfl⟩)
  | atMost count =>
    by_cases hpart : content.slice filling.cursor (min count filling.room) = []
    · refine .inr (.inl ⟨?_, if_pos hpart⟩)
      have hlength := congrArg List.length hpart
      rw [Content.length_slice, List.length_nil] at hlength
      show ¬ 0 < count ∨ _
      omega
    · exact .inr (.inr ⟨_, hpart, hbegins count, if_neg hpart⟩)

/-! ## What is in the buffer -/

/-- That a loop has brought the bytes from `start` on, and nothing else, into a buffer. -/
structure Follows (content : Content) (schedule : Nat → Delivery) (buffer : Bytes) (start : Nat)
    (filling : Filling) : Prop where
  /-- There is room for what came. -/
  total_le : filling.total ≤ buffer.length
  /-- All of it was there to come. -/
  inside : filling.total ≤ content.size - start
  /-- It is the range from the start on, and the rest of the buffer is as it was. -/
  written : filling.buffer = buffer.overwrite (content.bytes.slice start filling.total)
  /-- The next byte comes from behind it. -/
  cursor : filling.cursor = start + filling.total
  /-- If the loop was stopped, then a call did it or the bytes were at their end. -/
  reason : filling.stopped = true →
    (∃ call < filling.calls, ¬ (schedule call).IsProgress) ∨ content.size ≤ filling.cursor

theorem follows_start (content : Content) (schedule : Nat → Delivery) (buffer : Bytes)
    (cursor : Nat) : (start buffer cursor).Follows content schedule buffer cursor where
  total_le := Nat.zero_le _
  inside := Nat.zero_le _
  written := by simp [start, Bytes.slice, Bytes.overwrite]
  cursor := rfl
  reason h := by cases h

theorem Follows.length_slice (h : filling.Follows content schedule buffer cursor) :
    (content.bytes.slice cursor filling.total).length = filling.total := by
  rw [Bytes.length_slice, Content.length_bytes]
  exact Nat.min_eq_left h.inside

theorem Follows.length_buffer (h : filling.Follows content schedule buffer cursor) :
    filling.buffer.length = buffer.length := by
  have hle := h.total_le
  rw [h.written, Bytes.length_overwrite]
  rwa [h.length_slice]

/-- A part that comes next belongs behind what came before. -/
theorem Follows.receive (h : filling.Follows content schedule buffer cursor) {part : Bytes}
    (hstopped : filling.stopped = false)
    (hpart : part <+: content.bytes.slice filling.cursor filling.room) :
    (filling.called.receive part).Follows content schedule buffer cursor := by
  have hnext := Bytes.eq_slice_of_isPrefix hpart
  have hlength := hpart.length_le
  rw [Bytes.length_slice, Content.length_bytes, room, h.length_buffer, h.cursor] at hlength
  have hle := h.total_le
  have hinside := h.inside
  have hboth : content.bytes.slice cursor (filling.total + part.length) =
      content.bytes.slice cursor filling.total ++ part := by
    rw [← Bytes.slice_append_slice, ← h.cursor, ← hnext]
  constructor
  · show filling.total + part.length ≤ buffer.length
    omega
  · show filling.total + part.length ≤ content.size - cursor
    omega
  · show filling.buffer.take filling.total ++
      Bytes.overwrite (filling.buffer.drop filling.total) part = _
    have happend := Bytes.overwrite_append buffer (content.bytes.slice cursor filling.total) part
    rw [h.length_slice, ← h.written, ← hboth] at happend
    exact happend
  · show filling.cursor + part.length = cursor + (filling.total + part.length)
    rw [h.cursor, Nat.add_assoc]
  · intro hcontra
    exact absurd (hstopped.symm.trans hcontra) (by decide)

/-- **One turn** leaves the bytes in the buffer right. -/
theorem Follows.turn (h : filling.Follows content schedule buffer cursor) :
    (filling.turn content schedule).Follows content schedule buffer cursor := by
  cases hover : filling.isOver with
  | true =>
    rw [turn_of_isOver hover]
    exact h
  | false =>
    obtain ⟨hstopped, -⟩ := isOver_eq_false_iff.1 hover
    rcases turn_cases content schedule hover with
      ⟨-, hturn⟩ | ⟨hreason, hturn⟩ | ⟨part, -, hpart, hturn⟩
    · rw [hturn]
      refine ⟨h.total_le, h.inside, h.written, h.cursor, ?_⟩
      intro hcontra
      exact absurd (hstopped.symm.trans hcontra) (by decide)
    · rw [hturn]
      refine ⟨h.total_le, h.inside, h.written, h.cursor, ?_⟩
      intro _
      rcases hreason with hcall | hend
      · exact .inl ⟨filling.calls, Nat.lt_succ_self _, hcall⟩
      · exact .inr hend
    · rw [hturn]
      exact h.receive hstopped hpart

/-- **All turns** do. -/
theorem Follows.turns (h : filling.Follows content schedule buffer cursor) (count : Nat) :
    (filling.turns content schedule count).Follows content schedule buffer cursor := by
  induction count generalizing filling with
  | zero => exact h
  | succ count ih =>
    rw [turns_succ]
    exact ih h.turn

/-- If every call made progress, the loop ends with all that there is room for. -/
theorem Follows.total_eq (h : filling.Follows content schedule buffer cursor)
    (hover : filling.isOver = true)
    (hprogress : ∀ call < filling.calls, (schedule call).IsProgress) :
    filling.total = min buffer.length (content.size - cursor) := by
  have hle := h.total_le
  have hinside := h.inside
  rw [isOver, Bool.or_eq_true, beq_iff_eq, room, h.length_buffer] at hover
  rcases hover with hstopped | hfull
  · rcases h.reason hstopped with ⟨call, hcall, hnot⟩ | hend
    · exact absurd (hprogress call hcall) hnot
    · have hcursor := h.cursor
      omega
  · omega

/-! ## The loop ends -/

/-- A part that fits takes its length of the room. -/
theorem room_receive {part : Bytes} (h : part.length ≤ filling.room) :
    (filling.receive part).room = filling.room - part.length := by
  have hlength : (filling.receive part).buffer.length = filling.buffer.length := by
    unfold room at h
    simp only [receive, List.length_append, List.length_take, Bytes.overwrite, List.length_drop]
    omega
  show (filling.receive part).buffer.length - (filling.total + part.length) = _
  rw [hlength, room, Nat.sub_add_eq]

/-- So does a part of what is still to come. -/
theorem room_called_receive {part : Bytes}
    (h : part <+: content.bytes.slice filling.cursor filling.room) :
    (filling.called.receive part).room = filling.room - part.length := by
  have hlength := h.length_le
  rw [Bytes.length_slice] at hlength
  exact room_receive (Nat.le_trans hlength (Nat.min_le_left _ _))

/-- No turn makes room. -/
theorem room_turn_le : (filling.turn content schedule).room ≤ filling.room := by
  cases hover : filling.isOver with
  | true => exact Nat.le_of_eq (congrArg room (turn_of_isOver hover))
  | false =>
    rcases turn_cases content schedule hover with
      ⟨-, hturn⟩ | ⟨-, hturn⟩ | ⟨part, -, hpart, hturn⟩
    · exact Nat.le_of_eq (by rw [hturn]; rfl)
    · exact Nat.le_of_eq (by rw [hturn]; rfl)
    · rw [hturn, room_called_receive hpart]
      exact Nat.sub_le _ _

/-- A call that is no interruption ends the loop or takes room. -/
theorem room_turn_lt (hover : filling.isOver = false)
    (hcall : schedule filling.calls ≠ .interrupted) :
    (filling.turn content schedule).isOver = true ∨
      (filling.turn content schedule).room < filling.room := by
  obtain ⟨-, hroom⟩ := isOver_eq_false_iff.1 hover
  rcases turn_cases content schedule hover with
    ⟨hinterrupted, -⟩ | ⟨-, hturn⟩ | ⟨part, hne, hpart, hturn⟩
  · exact absurd hinterrupted hcall
  · rw [hturn]
    exact .inl rfl
  · have hpos : 0 < part.length := List.length_pos_iff.2 hne
    rw [hturn, room_called_receive hpart]
    exact .inr (by omega)

/-- If some call to come is no interruption, then some turn ends the loop or takes room. -/
theorem exists_room_lt (content : Content) {later : Nat} (hlater : schedule later ≠ .interrupted)
    (hcalls : filling.calls ≤ later) (hover : filling.isOver = false) :
    ∃ count, (turns content schedule count filling).isOver = true ∨
      (turns content schedule count filling).room < filling.room := by
  -- the induction is on the number of calls up to that one, which may all be interruptions
  induction hdistance : later - filling.calls generalizing filling with
  | zero =>
    obtain rfl : later = filling.calls := by omega
    exact ⟨1, room_turn_lt hover hlater⟩
  | succ distance ih =>
    by_cases hcall : schedule filling.calls = .interrupted
    · have hturn : filling.turn content schedule = filling.called := by
        rw [turn, if_neg (Bool.eq_false_iff.1 hover), hcall]
      have hnext : filling.called.calls = filling.calls + 1 := rfl
      obtain ⟨count, hcount⟩ := ih (show filling.called.calls ≤ later by omega) hover (by omega)
      refine ⟨count + 1, ?_⟩
      rw [turns_succ, hturn]
      exact hcount
    · exact ⟨1, room_turn_lt hover hcall⟩

/-- **The loop ends**, if the reader is never interrupted for ever. -/
theorem exists_isOver (content : Content)
    (hschedule : ∀ call, ∃ later ≥ call, schedule later ≠ .interrupted) (filling : Filling) :
    ∃ count, (turns content schedule count filling).isOver = true := by
  induction hroom : filling.room using Nat.strongRecOn generalizing filling with
  | _ room ih =>
    cases hover : filling.isOver with
    | true => exact ⟨0, hover⟩
    | false =>
      obtain ⟨later, hcalls, hlater⟩ := hschedule filling.calls
      obtain ⟨count, hended | hlt⟩ := exists_room_lt content hlater hcalls hover
      · exact ⟨count, hended⟩
      · obtain ⟨more, hmore⟩ := ih _ (hroom ▸ hlt) _ rfl
        exact ⟨more + count, by rwa [turns_add]⟩

/-! ## The recursion is the loop -/

/-- How many bytes will have come in the end, and the deliveries that will be left. -/
def outlook (content : Content) (deliveries : List Delivery) (filling : Filling) :
    Nat × List Delivery :=
  let left := deliveries.drop filling.calls
  if filling.stopped then (filling.total, left)
  else
    let (bytes, left) := fill content left filling.cursor filling.room
    (filling.total + bytes.length, left)

variable {deliveries : List Delivery}

theorem outlook_of_stopped (hstopped : filling.stopped = true) :
    filling.outlook content deliveries = (filling.total, deliveries.drop filling.calls) :=
  if_pos hstopped

theorem outlook_of_not_stopped (hstopped : filling.stopped = false) {bytes : Bytes}
    {left : List Delivery}
    (hfill : fill content (deliveries.drop filling.calls) filling.cursor filling.room =
      (bytes, left)) :
    filling.outlook content deliveries = (filling.total + bytes.length, left) := by
  rw [outlook, hfill]
  exact if_neg (Bool.eq_false_iff.1 hstopped)

/-- When the loop is over, it has what it was going to have. -/
theorem outlook_of_isOver (h : filling.isOver = true) :
    filling.outlook content deliveries = (filling.total, deliveries.drop filling.calls) := by
  cases hstopped : filling.stopped with
  | true => exact outlook_of_stopped hstopped
  | false =>
    rw [isOver, hstopped, Bool.false_or, beq_iff_eq] at h
    have hfill : fill content (deliveries.drop filling.calls) filling.cursor filling.room =
        ([], deliveries.drop filling.calls) := by
      rw [h]
      exact fill_zero
    exact outlook_of_not_stopped hstopped hfill

/-- After a part, what is behind it comes. -/
theorem outlook_receive (hstopped : filling.stopped = false) {part bytes : Bytes}
    {left : List Delivery} (hpart : part.length ≤ filling.room)
    (hfill : fill content (deliveries.drop (filling.calls + 1)) (filling.cursor + part.length)
      (filling.room - part.length) = (bytes, left)) :
    (filling.called.receive part).outlook content deliveries =
      (filling.total + (part ++ bytes).length, left) := by
  have hroom : (filling.called.receive part).room = filling.room - part.length :=
    room_receive hpart
  rw [← hroom] at hfill
  have hkept : (filling.called.receive part).stopped = false := hstopped
  rw [outlook_of_not_stopped hkept hfill, List.length_append, ← Nat.add_assoc]
  rfl

/-- **What a read will have delivered** does not change from one turn of the loop to the next. -/
theorem outlook_turn {width : Nat} (hwidth : filling.room ≤ width) :
    (filling.turn content (scheduleOf deliveries width)).outlook content deliveries =
      filling.outlook content deliveries := by
  cases hover : filling.isOver with
  | true => rw [turn_of_isOver hover]
  | false =>
    obtain ⟨hstopped, hroom⟩ := isOver_eq_false_iff.1 hover
    have hfill := fill_drop content deliveries filling.cursor hroom hwidth filling.calls
    rw [turn, if_neg (Bool.eq_false_iff.1 hover)]
    cases hcall : scheduleOf deliveries width filling.calls with
    | interrupted =>
      rw [hcall, fill_interrupted hroom] at hfill
      rw [outlook_of_not_stopped hstopped hfill]
      have hkept : filling.called.stopped = false := hstopped
      exact outlook_of_not_stopped hkept rfl
    | failed =>
      rw [hcall, fill_failed hroom] at hfill
      rw [outlook_of_not_stopped hstopped hfill]
      exact outlook_of_stopped rfl
    | atMost count =>
      generalize hpart : content.slice filling.cursor (min count filling.room) = part
      rw [hcall, fill_atMost hroom hpart] at hfill
      have hle : part.length ≤ filling.room := by
        rw [← hpart, Content.length_slice]
        omega
      show outlook content deliveries (if _ then _ else _) = _
      rw [hpart]
      split
      next hempty =>
        rw [if_pos hempty] at hfill
        rw [outlook_of_not_stopped hstopped hfill]
        exact outlook_of_stopped rfl
      next hne =>
        rw [if_neg hne] at hfill
        rw [outlook_of_not_stopped hstopped hfill]
        exact outlook_receive hstopped hle rfl

/-- No turn changes it. -/
theorem outlook_turns (content : Content) (deliveries : List Delivery) {width : Nat}
    (hwidth : filling.room ≤ width) (count : Nat) :
    (filling.turns content (scheduleOf deliveries width) count).outlook content deliveries =
      filling.outlook content deliveries := by
  induction count generalizing filling with
  | zero => rfl
  | succ count ih =>
    rw [turns_succ, ih (Nat.le_trans room_turn_le hwidth), outlook_turn hwidth]

end Filling

/-- The deliveries of a reader have an end, so it is not interrupted for ever. -/
theorem exists_scheduleOf_ne (deliveries : List Delivery) (width call : Nat) :
    ∃ later ≥ call, scheduleOf deliveries width later ≠ .interrupted := by
  refine ⟨max call deliveries.length, Nat.le_max_left _ _, ?_⟩
  rw [scheduleOf, List.getElem?_eq_none (Nat.le_max_right _ _)]
  exact Delivery.noConfusion

/-- That a loop is over, and that what it leaves is what a read gives. -/
structure Ends (reader : Reader) (buffer : Bytes) (ended : Filling) : Prop where
  /-- There are no more calls. -/
  isOver : ended.isOver = true
  /-- The bytes of the read have been written to the front of the buffer. -/
  written : ended.buffer = buffer.overwrite (reader.read buffer.length).1
  /-- They have been counted. -/
  total : ended.total = (reader.read buffer.length).1.length
  /-- The cursor of the reader is where the read leaves it. -/
  cursor : ended.cursor = (reader.read buffer.length).2.cursor
  /-- As many deliveries are left as the read leaves. -/
  deliveries : reader.deliveries.drop ended.calls = (reader.read buffer.length).2.deliveries

/-- What a read gives is the range from the cursor on. -/
theorem read_eq_slice (reader : Reader) (wanted : Nat) :
    (reader.read wanted).1 =
      reader.content.bytes.slice reader.cursor (reader.read wanted).1.length :=
  Bytes.eq_slice_of_isPrefix (isPrefix_fill _ _ _ _)

/-- **The loop ends with what the read gives.** -/
theorem exists_ends (reader : Reader) (buffer : Bytes) : ∃ count,
    let ended := Filling.turns reader.content (scheduleOf reader.deliveries buffer.length) count
      (.start buffer reader.cursor)
    reader.Ends buffer ended ∧
      ended.Follows reader.content (scheduleOf reader.deliveries buffer.length) buffer
        reader.cursor := by
  obtain ⟨count, hover⟩ := Filling.exists_isOver reader.content
    (exists_scheduleOf_ne reader.deliveries buffer.length) (.start buffer reader.cursor)
  refine ⟨count, ?_⟩
  have hfollows := (Filling.follows_start reader.content
    (scheduleOf reader.deliveries buffer.length) buffer reader.cursor).turns count
  have hroom : (Filling.start buffer reader.cursor).room ≤ buffer.length := Nat.le_refl _
  have houtlook := Filling.outlook_turns reader.content reader.deliveries hroom count
  generalize Filling.turns reader.content _ count _ = ended at *
  rw [Filling.outlook_of_isOver hover] at houtlook
  -- before the first turn, what will have come is what the read gives
  have hread : (Filling.start buffer reader.cursor).outlook reader.content reader.deliveries =
      ((reader.read buffer.length).1.length, (reader.read buffer.length).2.deliveries) := by
    rw [Filling.outlook_of_not_stopped rfl rfl]
    exact congrArg (fun length => (length, _)) (Nat.zero_add _)
  obtain ⟨htotal, hleft⟩ := Prod.mk.inj (houtlook.trans hread)
  refine ⟨⟨hover, ?_, htotal, ?_, hleft⟩, hfollows⟩
  · rw [hfollows.written, htotal, ← read_eq_slice]
  · rw [hfollows.cursor, htotal]
    rfl

/-- If the deliveries that a read uses up all make progress, all comes that there is room for. -/
theorem length_read_eq {reader : Reader} {wanted : Nat} {used : List Delivery}
    (hused : reader.deliveries = used ++ (reader.read wanted).2.deliveries)
    (hprogress : ∀ delivery ∈ used, delivery.IsProgress) :
    (reader.read wanted).1.length = min wanted (reader.content.size - reader.cursor) := by
  -- any buffer of the length will do
  generalize hbuffer : List.replicate wanted (0 : UInt8) = buffer
  obtain rfl : buffer.length = wanted := by rw [← hbuffer, List.length_replicate]
  obtain ⟨count, hends, hfollows⟩ := exists_ends reader buffer
  generalize Filling.turns reader.content _ count _ = ended at hends hfollows
  have htake : used = reader.deliveries.take ended.calls := by
    have hsame := hused.symm.trans (List.take_append_drop ended.calls reader.deliveries).symm
    rw [← hends.deliveries] at hsame
    exact List.append_cancel_right hsame
  rw [← hends.total]
  rcases Nat.eq_zero_or_pos buffer.length with hempty | hpos
  · have hle := hfollows.total_le
    omega
  · refine hfollows.total_eq hends.isOver ?_
    intro call hcall
    rcases Nat.lt_or_ge call reader.deliveries.length with hlt | hge
    · rw [scheduleOf, List.getElem?_eq_getElem hlt]
      apply hprogress
      rw [htake]
      exact List.mem_take_iff_getElem.2 ⟨call, by omega, rfl⟩
    · rw [scheduleOf, List.getElem?_eq_none hge]
      exact hpos

end Reader

/-! ## Reads one after another -/

namespace ByteSource

/-- Reads several times, each time at most as many bytes as given. -/
def readEach {σ : Type} [ByteSource σ] : σ → (counts : List Nat) → List Bytes × σ
  | source, [] => ([], source)
  | source, count :: counts =>
    let (piece, source) := read source count
    let (pieces, source) := readEach source counts
    (piece :: pieces, source)

end ByteSource

namespace Stream

/-- A stream whose reader has come `count` bytes further and has some deliveries left. -/
def advanced (reader : Reader) (size : Nat) (path : Option FilePath) (count : Nat)
    (left : List Delivery) : Stream :=
  ⟨some { reader with cursor := reader.cursor + count, deliveries := left }, size, path⟩

/-- **Reads one after another** bring one range, in pieces. -/
theorem readEach_eq (reader : Reader) (size : Nat) (path : Option FilePath) (counts : List Nat) :
    let outcome := ByteSource.readEach (Stream.mk (some reader) size path) counts
    outcome.1.flatten = reader.content.bytes.slice reader.cursor outcome.1.flatten.length ∧
      ∃ left, outcome.2 = advanced reader size path outcome.1.flatten.length left := by
  induction counts generalizing reader with
  | nil => exact ⟨rfl, reader.deliveries, rfl⟩
  | cons count counts ih =>
    obtain ⟨hrest, left, hafter⟩ := ih (reader.read count).2
    have hpiece := reader.read_eq_slice count
    have hstep : ByteSource.readEach (Stream.mk (some reader) size path) (count :: counts) =
        ((reader.read count).1 ::
            (ByteSource.readEach (Stream.mk (some (reader.read count).2) size path) counts).1,
          (ByteSource.readEach (Stream.mk (some (reader.read count).2) size path) counts).2) := rfl
    rw [hstep]
    generalize ByteSource.readEach (Stream.mk (some (reader.read count).2) size path) counts =
      outcome at hrest hafter ⊢
    -- the second read starts where the first one left the cursor
    change _ = reader.content.bytes.slice (reader.cursor + (reader.read count).1.length) _ at hrest
    simp only [List.flatten_cons, List.length_append]
    refine ⟨?_, left, ?_⟩
    · rw [← Bytes.slice_append_slice, ← hpiece, ← hrest]
    · rw [hafter, advanced, advanced, ← Nat.add_assoc]
      rfl

/-- **A read does not depend on how its reader delivers.**  Let a stream have a reader that goes on in
any way.  One read brings no more bytes than there is room for in the buffer and are there; they are the
bytes from the cursor on, written to the front of the buffer, and the cursor is behind them, however the
read ended.  Some deliveries were used up for it, and if all of these made progress, nothing is
missing.  The loop that calls the reader until the buffer is full comes to the same end.  So the
reads after a seek bring one range, in pieces.  And the loop ends for every reader that is not
interrupted for ever, with the bytes from the cursor on in its buffer, and all of them if every call
made progress. -/
theorem read_independent_of_delivery (reader : Reader) (size : Nat) (path : Option FilePath) :
    let stream : Stream := ⟨some reader, size, path⟩
    let content := reader.content
    (∀ buffer : Bytes,
      let bytes := (ByteSource.read stream buffer.length).1
      let filled := buffer.overwrite bytes
      bytes.length ≤ min buffer.length (content.size - reader.cursor) ∧
      filled.take bytes.length = content.bytes.slice reader.cursor bytes.length ∧
      filled.drop bytes.length = buffer.drop bytes.length ∧
      ∃ used left, reader.deliveries = used ++ left ∧
        (ByteSource.read stream buffer.length).2 = advanced reader size path bytes.length left ∧
        ((∀ delivery ∈ used, delivery.IsProgress) →
          bytes.length = min buffer.length (content.size - reader.cursor)) ∧
        ∃ count, reader.Ends buffer ((Reader.Filling.start buffer reader.cursor).turns content
          (Reader.scheduleOf reader.deliveries buffer.length) count)) ∧
    (∀ position, (ByteSource.seek stream position).1 = true → ∀ counts,
      let outcome := ByteSource.readEach (ByteSource.seek stream position).2 counts
      outcome.1.flatten = content.bytes.slice position outcome.1.flatten.length ∧
      ∃ left, outcome.2 =
        advanced { reader with cursor := position } size path outcome.1.flatten.length left) ∧
    ∀ buffer schedule, (∀ call, ∃ later ≥ call, schedule later ≠ .interrupted) →
      ∃ count, let ended := (Reader.Filling.start buffer reader.cursor).turns content schedule count
        ended.isOver = true ∧ ended.Follows content schedule buffer reader.cursor ∧
          ((∀ call < ended.calls, (schedule call).IsProgress) →
            ended.total = min buffer.length (content.size - reader.cursor)) := by
  intro stream content
  refine ⟨?_, ?_, ?_⟩
  · intro buffer bytes filled
    obtain ⟨count, hends, hfollows⟩ := reader.exists_ends buffer
    have hbytes : bytes = content.bytes.slice reader.cursor bytes.length :=
      reader.read_eq_slice buffer.length
    obtain ⟨used, hused⟩ : ∃ used, reader.deliveries =
        used ++ (reader.read buffer.length).2.deliveries := by
      rw [← hends.deliveries]
      exact ⟨_, (List.take_append_drop _ _).symm⟩
    refine ⟨?_, ?_, ?_, used, _, hused, rfl, ?_, count, hends⟩
    · have hle := hfollows.total_le
      have hinside := hfollows.inside
      rw [hends.total] at hle hinside
      exact Nat.le_min.2 ⟨hle, hinside⟩
    · rw [← hbytes]
      exact Bytes.take_overwrite buffer bytes
    · exact Bytes.drop_overwrite buffer bytes
    · exact Reader.length_read_eq hused
  · intro position hmoved counts
    have hseek : ByteSource.seek stream position =
        (true, ⟨some { reader with cursor := position }, size, path⟩) := by
      change (reader.seek position).1 = true at hmoved
      show ((reader.seek position).1, Stream.mk (some (reader.seek position).2) size path) = _
      unfold Reader.seek at hmoved ⊢
      split at hmoved
      · cases hmoved
      next haccepts => rw [if_neg haccepts]
    rw [hseek]
    exact readEach_eq { reader with cursor := position } size path counts
  · intro buffer schedule hschedule
    obtain ⟨count, hover⟩ :=
      Reader.Filling.exists_isOver content hschedule (.start buffer reader.cursor)
    have hfollows :=
      (Reader.Filling.follows_start content schedule buffer reader.cursor).turns count
    exact ⟨count, hover, hfollows, hfollows.total_eq hover⟩

/-- A reader that is interrupted, delivers two bytes, fails, and then says once that it is at the
end. -/
def faltering : Reader :=
  { content := .ofBytes [1, 2, 3, 4, 5]
    deliveries := [.interrupted, .atMost 2, .failed, .interrupted, .atMost 0, .atMost 1] }

/-- Three reads of four bytes bring all five, and none twice, although the second brings nothing. -/
theorem read_independent_of_delivery_faltering :
    let outcome := ByteSource.readEach (ByteSource.seek (Stream.ofReader faltering) 0).2 [4, 4, 4]
    outcome.1 = [[1, 2], [], [3, 4, 5]] ∧ outcome.1.flatten = [1, 2, 3, 4, 5] ∧
      ∃ count, ((Reader.Filling.start [9, 9, 9, 9] 5).turns faltering.content
        (fun call => if call % 2 = 0 then .interrupted else .atMost 1) count).isOver = true := by
  intro outcome
  have hpieces : outcome.1 = [[1, 2], [], [3, 4, 5]] := by decide
  obtain ⟨-, hruns, hended⟩ :=
    read_independent_of_delivery { faltering with cursor := 5 } 5 none
  obtain ⟨hflatten, -⟩ := hruns 0 rfl [4, 4, 4]
  obtain ⟨count, hover, -⟩ := hended [9, 9, 9, 9]
    (fun call => if call % 2 = 0 then .interrupted else .atMost 1)
    fun call => ⟨2 * call + 1, by omega, by simp [Nat.add_mod]⟩
  exact ⟨hpieces, hflatten, count, hover⟩

end Stream

end WadCatalog
