import Mathlib.Data.List.GetD
import Mathlib.Data.Nat.Bitwise
import EarlyBoot.Proofs.Bytes
import EarlyBoot.Proofs.SerialLine

/-!
The pace of a serial line. The answers of the machine set it: each answer is read once, and an
answer that shows room is followed by the next byte, whichever step of the sender the byte belongs
to. Since the answers show room in the end, as many turns of reading are enough as there are
answers and bytes.
-/

namespace EarlyBoot

/-- The answer that an event reads. -/
def Event.answer? : Event → Option UInt8
  | .read _ answer => some answer
  | _ => none

/-- The byte that an event writes to a port. -/
def Event.writtenTo? (port : UInt16) : Event → Option UInt8
  | .write p b => if p = port then some b else none
  | _ => none

theorem Event.writtenTo?_write (port : UInt16) (b : UInt8) :
    Event.writtenTo? port (.write port b) = some b :=
  if_pos rfl

namespace Bus

/-- One read, with the next answer that the machine has left, or else `idle`. -/
def read (port : UInt16) : BusAction UInt8 :=
  modifyGet fun bus =>
    let answer := bus.pending.headD idle
    (answer, ⟨bus.pending.tail, bus.events.push (.read port answer)⟩)

/-- What the reads to come return, counted from the next one. -/
def answer (bus : Bus) (n : Nat) : UInt8 :=
  bus.pending.getD n idle

/-- Any number of idle answers can be counted as left. -/
theorem answer_eq (bus : Bus) (extra n : Nat) :
    bus.answer n = (bus.pending ++ List.replicate extra idle).getD n idle := by
  by_cases hpending : n < bus.pending.length
  · exact (List.getD_append _ _ _ _ hpending).symm
  · have hpast : bus.pending.length ≤ n := Nat.le_of_not_lt hpending
    rw [answer, List.getD_eq_default _ _ hpast, List.getD_append_right _ _ _ _ hpast,
      List.getD_eq_getElem?_getD, List.getElem?_replicate]
    split <;> rfl

/-- Answers that were read come first in what was to be read. -/
theorem answer_of_append {bus after : Bus} {answers : List UInt8} {extra : Nat}
    (h : answers ++ after.pending = bus.pending ++ List.replicate extra idle) :
    answers = (List.range answers.length).map bus.answer ∧
      ∀ n, after.answer n = bus.answer (answers.length + n) := by
  have hstream (n : Nat) : bus.answer n = (answers ++ after.pending).getD n idle := by
    rw [h]
    exact bus.answer_eq extra n
  constructor
  · refine List.ext_getElem (by rw [List.length_map, List.length_range]) fun n hn _ => ?_
    rw [List.getElem_map, List.getElem_range, hstream, List.getD_append _ _ _ _ hn,
      List.getD_eq_getElem _ _ hn]
  · intro n
    rw [hstream, List.getD_append_right _ _ _ _ (Nat.le_add_right _ n), Nat.add_sub_cancel_left]
    rfl

end Bus

namespace SerialLine

theorem hasRoom_eq_testBit (status : UInt8) : hasRoom status = status.toNat.testBit 5 := by
  have hbit : (status &&& 0x20).toNat = (status.toNat.testBit 5).toNat * 2 ^ 5 := by
    rw [UInt8.toNat_and]
    exact Nat.and_two_pow _ 5
  rw [hasRoom, Bool.eq_iff_iff, decide_eq_true_eq, ne_eq, ← UInt8.toNat_inj, hbit]
  cases status.toNat.testBit 5 <;> decide

/-- One step of a sender. -/
inductive Transmission where
  | byte (b : UInt8)
  | bytes (bs : Bytes)
  | text (s : String)

/-- What a step is to send; a text goes as UTF-8. -/
def Transmission.data : Transmission → Bytes
  | byte b => [b]
  | bytes bs => bs
  | text s => s.toUTF8.data.toList

section

variable (line : SerialLine)

def transmit : Transmission → BusAction Unit
  | .byte b => line.sendByte b
  | .bytes bs => line.send bs
  | .text s => line.sendText s

/-- Take a number of turns at sending. A turn reads the status once, and writes the next byte if
there is room. Gives the bytes that are left. -/
def feed : Nat → Bytes → BusAction Bytes
  | 0, data => return data
  | _ + 1, [] => return []
  | turns + 1, b :: data => do
    if hasRoom (← Bus.read (line.base + 5)) then
      Bus.write line.base b
      feed turns data
    else feed turns (b :: data)

/-- The events by which data go over a line. A byte is written directly behind an answer that shows
room, and the answers before show none. -/
inductive Carries : Bytes → List Event → Prop
  | nil : Carries [] []
  | busy {status b : UInt8} {data : Bytes} {events : List Event} :
      hasRoom status = false → Carries (b :: data) events →
      Carries (b :: data) (.read (line.base + 5) status :: events)
  | ready {status b : UInt8} {data : Bytes} {events : List Event} :
      hasRoom status = true → Carries data events →
      Carries (b :: data) (.read (line.base + 5) status :: .write line.base b :: events)

theorem transmit_eq (step : Transmission) : line.transmit step = line.send step.data := by
  cases step with
  | byte b => exact bind_pure_unit.symm
  | bytes bs => rfl
  | text s =>
      rw [Transmission.data, String.toUTF8_eq_toByteArray, Bytes.toByteArray_eq]
      rfl

theorem send_append (first later : Bytes) :
    line.send (first ++ later) = (do line.send first; line.send later) :=
  List.forM_append

/-- Steps one after the other send the data of all of them. -/
theorem forM_transmit (steps : List Transmission) :
    steps.forM line.transmit = line.send (steps.flatMap Transmission.data) := by
  induction steps with
  | nil => rfl
  | cons step later ih =>
      rw [List.flatMap_cons, send_append, ← transmit_eq, ← ih]
      rfl

end

namespace Carries

variable {line : SerialLine} {data : Bytes} {events : List Event}

theorem of_sending (s : Sending) (h : line.Carries data events) :
    line.Carries (s.byte :: data) (s.events (line.base + 5) line.base ++ events) := by
  obtain ⟨busy, status, b, hbusy, hready⟩ := s
  induction busy with
  | nil => exact .ready hready h
  | cons first later ih =>
      obtain ⟨hfirst, hlater⟩ := List.forall_mem_cons.mp hbusy
      exact .busy hfirst (ih hlater)

theorem of_sendings (sendings : List Sending) :
    line.Carries (sendings.map (·.byte))
      (sendings.flatMap (·.events (line.base + 5) line.base)) := by
  induction sendings with
  | nil => exact .nil
  | cons s later ih => exact of_sending s ih

/-- What is written to the base port are the data. -/
theorem written (h : line.Carries data events) :
    events.filterMap (Event.writtenTo? line.base) = data := by
  induction h with
  | nil => rfl
  | busy _ _ ih => exact ih
  | ready _ _ ih =>
      rw [List.filterMap_cons_none rfl, List.filterMap_cons_some (Event.writtenTo?_write _ _), ih]

/-- Only the status is read, and only data are written. -/
theorem ports (h : line.Carries data events) : ∀ e ∈ events,
    (∃ status, e = .read (line.base + 5) status) ∨ ∃ b, e = .write line.base b := by
  induction h with
  | nil => exact List.forall_mem_nil _
  | busy _ _ ih => exact List.forall_mem_cons.mpr ⟨.inl ⟨_, rfl⟩, ih⟩
  | ready _ _ ih =>
      exact List.forall_mem_cons.mpr ⟨.inl ⟨_, rfl⟩, List.forall_mem_cons.mpr ⟨.inr ⟨_, rfl⟩, ih⟩⟩

theorem room_before_write (h : line.Carries data events) {before behind : List Event} {b : UInt8}
    (hevents : events = before ++ .write line.base b :: behind) :
    ∃ earlier status, before = earlier ++ [.read (line.base + 5) status] ∧
      hasRoom status = true := by
  induction h generalizing before with
  | nil => cases before <;> cases hevents
  | busy hfull _ ih =>
      cases before with
      | nil => cases hevents
      | cons e before =>
          obtain ⟨rfl, hlater⟩ := List.cons.inj hevents
          obtain ⟨earlier, status, rfl, hroom⟩ := ih hlater
          exact ⟨_ :: earlier, status, rfl, hroom⟩
  | ready hready _ ih =>
      cases before with
      | nil => cases hevents
      | cons e before =>
          obtain ⟨rfl, hwritten⟩ := List.cons.inj hevents
          cases before with
          | nil => exact ⟨[], _, rfl, hready⟩
          | cons e' before =>
              obtain ⟨rfl, hlater⟩ := List.cons.inj hwritten
              obtain ⟨earlier, status, rfl, hroom⟩ := ih hlater
              exact ⟨_ :: _ :: earlier, status, rfl, hroom⟩

/-- Behind an answer that shows room, the next byte is written: the bytes written before it and
behind it are the data before and behind that byte. -/
theorem write_after_room (h : line.Carries data events) {before behind : List Event}
    {status : UInt8} (hevents : events = before ++ .read (line.base + 5) status :: behind)
    (hroom : hasRoom status = true) :
    ∃ b rest, behind = .write line.base b :: rest ∧
      data = before.filterMap (Event.writtenTo? line.base) ++
        b :: rest.filterMap (Event.writtenTo? line.base) := by
  induction h generalizing before with
  | nil => cases before <;> cases hevents
  | busy hfull _ ih =>
      cases before with
      | nil =>
          cases hevents
          rw [hroom] at hfull
          cases hfull
      | cons e before =>
          obtain ⟨rfl, hlater⟩ := List.cons.inj hevents
          obtain ⟨next, rest, rfl, hdata⟩ := ih hlater
          exact ⟨next, rest, rfl, hdata⟩
  | ready _ hlater ih =>
      cases before with
      | nil =>
          cases hevents
          exact ⟨_, _, rfl, by rw [hlater.written]; rfl⟩
      | cons e before =>
          obtain ⟨rfl, hwritten⟩ := List.cons.inj hevents
          cases before with
          | nil => cases hwritten
          | cons e' before =>
              obtain ⟨rfl, hrest⟩ := List.cons.inj hwritten
              obtain ⟨next, rest, rfl, hdata⟩ := ih hrest
              refine ⟨next, rest, rfl, ?_⟩
              rw [List.filterMap_cons_none rfl,
                List.filterMap_cons_some (Event.writtenTo?_write _ _), List.cons_append, ← hdata]

end Carries

theorem Sending.answers_events (s : Sending) (status data : UInt16) :
    (s.events status data).filterMap Event.answer? = s.answers := by
  rw [events, List.filterMap_append, List.filterMap_map]
  exact (List.append_nil _).trans List.filterMap_some

theorem answers_of_sendings (sendings : List Sending) (status data : UInt16) :
    (sendings.flatMap (·.events status data)).filterMap Event.answer? =
      sendings.flatMap (·.answers) := by
  rw [List.filterMap_flatMap]
  exact congrArg sendings.flatMap (funext fun s => s.answers_events status data)

/-- An answer that shows no room is one that the machine has left. -/
theorem pending_of_full {bus : Bus} (hfull : hasRoom (bus.pending.headD Bus.idle) = false) :
    ∃ status later, bus.pending = status :: later ∧ hasRoom status = false := by
  cases hpending : bus.pending with
  | nil =>
      have hidle : hasRoom Bus.idle = true := by decide
      rw [hpending] at hfull
      exact Bool.noConfusion (hidle.symm.trans hfull)
  | cons status later =>
      rw [hpending] at hfull
      exact ⟨status, later, rfl, hfull⟩

/-- A turn with a byte to send reads the status, and writes the byte exactly if there is room. -/
theorem run_feed_succ (line : SerialLine) (turns : Nat) (b : UInt8) (data : Bytes) (bus : Bus) :
    let status := bus.pending.headD Bus.idle
    let seen := bus.events.push (.read (line.base + 5) status)
    (line.feed (turns + 1) (b :: data)).run.run bus =
      if hasRoom status then
        (line.feed turns data).run.run ⟨bus.pending.tail, seen.push (.write line.base b)⟩
      else (line.feed turns (b :: data)).run.run ⟨bus.pending.tail, seen⟩ := by
  intro status seen
  have hread : (Bus.read (line.base + 5)).run.run bus = (.ok status, ⟨bus.pending.tail, seen⟩) :=
    rfl
  refine (run_bind_of_ok hread _).trans ?_
  cases hroom : hasRoom status with
  | true => rfl
  | false => rfl

section

variable {line : SerialLine} (hline : line.base.toNat + 5 < UInt16.size)

include hline

/-- Sending waits on while the next answer shows no room. -/
theorem run_send_of_full {status : UInt8} (hfull : hasRoom status = false) (b : UInt8)
    (data : Bytes) (later : List UInt8) (events : Array Event) :
    (line.send (b :: data)).run.run ⟨status :: later, events⟩ =
      (line.send (b :: data)).run.run ⟨later, events.push (.read (line.base + 5) status)⟩ := by
  have hfirst : (line.sendByte b).run.run ⟨status :: later, events⟩ =
      (line.sendByte b).run.run ⟨later, events.push (.read (line.base + 5) status)⟩ := by
    rw [run_sendByte_eq hline, run_sendByte_eq hline, Bus.readUntil, hfull]
    rfl
  rw [send_cons, ExceptT.run_bind, StateT.run_bind, StateT.run_bind, hfirst]

/-- A byte is sent as soon as the next answer shows room. -/
theorem run_sendByte_of_room {b : UInt8} {bus : Bus}
    (hroom : hasRoom (bus.pending.headD Bus.idle) = true) :
    (line.sendByte b).run.run bus = (.ok (), ⟨bus.pending.tail, (bus.events.push
      (.read (line.base + 5) (bus.pending.headD Bus.idle))).push (.write line.base b)⟩) := by
  obtain ⟨pending, events⟩ := bus
  rw [run_sendByte_eq hline]
  cases pending with
  | nil => rfl
  | cons status later =>
      have hstatus : hasRoom status = true := hroom
      rw [Bus.readUntil, if_pos hstatus]
      rfl

/-- As many turns as there are answers and bytes are enough to send everything, with the same
events as sending it. -/
theorem run_feed {turns : Nat} {data : Bytes} {bus : Bus}
    (hturns : bus.pending.length + data.length ≤ turns) :
    (line.feed turns data).run.run bus = (.ok [], ((line.send data).run.run bus).2) := by
  -- A turn sends a byte, or it uses up an answer that the machine has left.
  induction turns generalizing data bus with
  | zero =>
      obtain rfl : data = [] := List.length_eq_zero_iff.mp (by omega)
      rfl
  | succ turns ih =>
      cases data with
      | nil => rfl
      | cons b data =>
          rw [List.length_cons] at hturns
          rw [run_feed_succ]
          cases hroom : hasRoom (bus.pending.headD Bus.idle) with
          | true =>
              rw [send_cons, run_bind_of_ok (run_sendByte_of_room hline hroom)]
              refine ih ?_
              rw [List.length_tail]
              omega
          | false =>
              obtain ⟨status, later, hpending, hfull⟩ := pending_of_full hroom
              obtain ⟨pending, events⟩ := bus
              obtain rfl : pending = status :: later := hpending
              have hleft : later.length + (b :: data).length ≤ turns := by
                rw [List.length_cons] at hturns ⊢
                omega
              rw [run_send_of_full hline hfull]
              exact ih hleft

end

/-- Bytes, runs of bytes and texts that are sent one after the other arrive as their data in a row,
and the machine answers every read. No more turns are needed for it than there are answers and
bytes. The events are reads of the status and writes of data: a write stands right behind an
answer that shows room, behind such an answer stands the write of the next byte, and the answers
are those that the machine has, each of them once and in their order. -/
theorem transmissions_arrive {line : SerialLine} (hline : line.base ≤ 0xFFFA)
    (steps : List Transmission) (bus : Bus) :
    let data := steps.flatMap Transmission.data
    ∃ (events : List Event) (after : Bus),
      (steps.forM line.transmit).run.run bus = (.ok (), after) ∧
      after.events = bus.events ++ events.toArray ∧
      (∀ turns, bus.pending.length + data.length ≤ turns →
        (line.feed turns data).run.run bus = (.ok [], after)) ∧
      events.filterMap (Event.writtenTo? line.base) = data ∧
      (∀ e ∈ events,
        (∃ status, e = .read (line.base + 5) status) ∨ ∃ b, e = .write line.base b) ∧
      (∀ before b behind, events = before ++ .write line.base b :: behind →
        ∃ earlier status, before = earlier ++ [.read (line.base + 5) status] ∧
          status.toNat.testBit 5 = true) ∧
      (∀ before status behind, events = before ++ .read (line.base + 5) status :: behind →
        status.toNat.testBit 5 = true →
        ∃ b rest, behind = .write line.base b :: rest ∧
          data = before.filterMap (Event.writtenTo? line.base) ++
            b :: rest.filterMap (Event.writtenTo? line.base)) ∧
      let answers := events.filterMap Event.answer?
      answers = (List.range answers.length).map bus.answer ∧
      ∀ n, after.answer n = bus.answer (answers.length + n) := by
  intro data
  have hports : line.base.toNat + 5 < UInt16.size := by
    have hle : line.base.toNat ≤ 0xFFFA := hline
    exact Nat.lt_of_le_of_lt (Nat.add_le_add_right hle 5) (by decide)
  obtain ⟨sendings, rest, extra, hbytes, hanswers, hsend⟩ := run_send hports data bus
  have hcarries : line.Carries data (sendings.flatMap (·.events (line.base + 5) line.base)) :=
    hbytes ▸ Carries.of_sendings sendings
  refine ⟨_, ⟨rest, _⟩, ?_, rfl, ?_, hcarries.written, hcarries.ports, ?_, ?_, ?_⟩
  · rw [forM_transmit]
    exact hsend
  · intro turns hturns
    rw [run_feed hports hturns, hsend]
  · intro before b behind hevents
    obtain ⟨earlier, status, hbefore, hroom⟩ := hcarries.room_before_write hevents
    exact ⟨earlier, status, hbefore, hasRoom_eq_testBit status ▸ hroom⟩
  · intro before status behind hevents hroom
    exact hcarries.write_after_room hevents ((hasRoom_eq_testBit status).trans hroom)
  · rw [answers_of_sendings]
    exact Bus.answer_of_append hanswers

/-- The last line whose registers are all ports. Of the two answers that the machine has left, the
second shows room; the idle answers behind them carry the two bytes of the text. -/
theorem transmissions_at_lastPort :
    let line : SerialLine := ⟨0xFFFA⟩
    let bus : Bus := ⟨[0x00, 0x60], #[]⟩
    let steps : List Transmission := [.byte 0x41, .bytes [], .text "é"]
    let after : Bus := ⟨[], #[.read 0xFFFF 0x00, .read 0xFFFF 0x60, .write 0xFFFA 0x41,
      .read 0xFFFF 0x20, .write 0xFFFA 0xC3, .read 0xFFFF 0x20, .write 0xFFFA 0xA9]⟩
    line.base ≤ 0xFFFA ∧
    (steps.forM line.transmit).run.run bus = (.ok (), after) ∧
    (line.feed 5 (steps.flatMap Transmission.data)).run.run bus = (.ok [], after) ∧
    after.events.toList.filterMap (Event.writtenTo? 0xFFFA) = steps.flatMap Transmission.data ∧
    ∀ n, after.answer n = bus.answer (4 + n) := by
  intro line bus steps after
  have hline : line.base ≤ 0xFFFA := UInt16.le_refl _
  have hafter : (steps.forM line.transmit).run.run bus = (.ok (), after) := rfl
  obtain ⟨events, last, hrun, hevents, hfeed, hwritten, -, -, -, -, hlater⟩ :=
    transmissions_arrive hline steps bus
  obtain rfl : last = after := (Prod.mk.inj (hrun.symm.trans hafter)).2
  have hlist : after.events.toList = events :=
    congrArg Array.toList (hevents.trans Array.empty_append)
  rw [← hlist] at hwritten hlater
  exact ⟨hline, hrun, hfeed 5 (by decide), hwritten, hlater⟩

end SerialLine

end EarlyBoot
