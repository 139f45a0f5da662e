import EarlyBoot.Proofs.Running
import EarlyBoot.SerialLine

/-!
Bytes on their way over a serial line. The machine answers each read of the status register, and a
byte is sent once an answer shows room. Every stream of answers shows room in the end, so whatever
is sent arrives, after as many reads as it takes.
-/

namespace EarlyBoot

namespace Bus

theorem run_write (port : UInt16) (value : UInt8) (bus : Bus) :
    (write port value).run.run bus =
      (.ok (), { bus with events := bus.events.push (.write port value) }) :=
  rfl

/-- A wait reads the answers that the machine has left, and then `idle`, up to the first one that
is accepted. -/
theorem readUntil_eq (port : UInt16) {accept : UInt8 → Bool} (hidle : accept idle = true)
    (pending : List UInt8) (events : Array Event) :
    ∃ busy ready rest extra,
      busy ++ ready :: rest = pending ++ List.replicate extra idle ∧
      (∀ status ∈ busy, accept status = false) ∧ accept ready = true ∧
      readUntil port accept pending events =
        ⟨rest, events ++ ((busy ++ [ready]).map (.read port)).toArray⟩ := by
  induction pending generalizing events with
  | nil => exact ⟨[], idle, [], 1, rfl, List.forall_mem_nil _, hidle, by simp [readUntil]⟩
  | cons status later ih =>
      cases haccept : accept status with
      | true =>
          exact ⟨[], status, later, 0, by simp, List.forall_mem_nil _, haccept,
            by simp [readUntil, haccept]⟩
      | false =>
          obtain ⟨busy, ready, rest, extra, hanswers, hbusy, hready, hread⟩ :=
            ih (events.push (.read port status))
          refine ⟨status :: busy, ready, rest, extra, congrArg (status :: ·) hanswers,
            List.forall_mem_cons.mpr ⟨haccept, hbusy⟩, hready, ?_⟩
          simp [readUntil, haccept, hread]

end Bus

namespace SerialLine

/-- One byte sent: the answers of the status register until it showed room, and the byte. -/
structure Sending where
  busy : List UInt8
  ready : UInt8
  byte : UInt8
  busy_full : ∀ status ∈ busy, hasRoom status = false
  ready_room : hasRoom ready = true

namespace Sending

def answers (s : Sending) : List UInt8 :=
  s.busy ++ [s.ready]

/-- The events of a sending, with the ports of the status register and the data register. -/
def events (status data : UInt16) (s : Sending) : List Event :=
  s.answers.map (.read status) ++ [.write data s.byte]

end Sending

theorem send_cons (line : SerialLine) (b : UInt8) (later : Bytes) :
    line.send (b :: later) = (do line.sendByte b; line.send later) :=
  rfl

section

variable {line : SerialLine} (hline : line.base.toNat + 5 < UInt16.size)

include hline

theorem port_of_lt (r : Register) : line.port r = .ok (line.base + r.offset) := by
  have hoffset : r.offset.toNat ≤ 5 := by cases r <;> decide
  exact if_pos (by omega)

/-- The writes that program a line, and nothing else. -/
theorem run_program (bus : Bus) :
    line.program.run.run bus = (.ok (), { bus with
      events := bus.events ++
        (setup.map fun (r, value) => Event.write (line.base + r.offset) value).toArray }) := by
  unfold program
  induction setup generalizing bus with
  | nil =>
      rw [List.map_nil, Array.append_empty]
      rfl
  | cons entry later ih =>
      obtain ⟨r, value⟩ := entry
      let first : Event := .write (line.base + r.offset) value
      have hfirst : (do Bus.write (← line.port r) value : BusAction Unit).run.run bus =
          (.ok (), { bus with events := bus.events.push first }) := by
        rw [port_of_lt hline]
        rfl
      refine (run_bind_of_ok hfirst _).trans ((ih _).trans ?_)
      simp [first]

/-- Sending a byte is waiting for an answer that shows room, and one write. -/
theorem run_sendByte_eq (b : UInt8) (bus : Bus) :
    (line.sendByte b).run.run bus = (Bus.write line.base b).run.run
      (Bus.readUntil (line.base + 5) hasRoom bus.pending bus.events) := by
  have hstatus : line.port .lineStatus = .ok (line.base + 5) := port_of_lt hline _
  have hdata : line.port .data = .ok line.base := by
    rw [port_of_lt hline, Register.offset, UInt16.add_zero]
  rw [sendByte, hstatus, hdata]
  rfl

theorem run_sendByte (b : UInt8) (bus : Bus) :
    ∃ (sending : Sending) (rest : List UInt8) (extra : Nat), sending.byte = b ∧
      sending.answers ++ rest = bus.pending ++ List.replicate extra Bus.idle ∧
      (line.sendByte b).run.run bus =
        (.ok (), ⟨rest, bus.events ++ (sending.events (line.base + 5) line.base).toArray⟩) := by
  obtain ⟨busy, ready, rest, extra, hanswers, hbusy, hready, hread⟩ :=
    Bus.readUntil_eq (line.base + 5) (by decide : hasRoom Bus.idle = true) bus.pending bus.events
  refine ⟨⟨busy, ready, b, hbusy, hready⟩, rest, extra, rfl, ?_, ?_⟩
  · rw [Sending.answers, List.append_assoc]
    exact hanswers
  · rw [run_sendByte_eq hline, hread, Bus.run_write]
    simp [Sending.events, Sending.answers]

/-- What is sent over a line are these bytes, in their order and nothing else. -/
theorem run_send (bs : Bytes) (bus : Bus) :
    ∃ (sendings : List Sending) (rest : List UInt8) (extra : Nat),
      sendings.map (·.byte) = bs ∧
      sendings.flatMap (·.answers) ++ rest = bus.pending ++ List.replicate extra Bus.idle ∧
      (line.send bs).run.run bus = (.ok (), ⟨rest, bus.events ++
        (sendings.flatMap (·.events (line.base + 5) line.base)).toArray⟩) := by
  induction bs generalizing bus with
  | nil =>
      refine ⟨[], bus.pending, 0, rfl, ?_, ?_⟩
      · rw [List.replicate_zero, List.append_nil]
        rfl
      · rw [List.flatMap_nil, Array.append_empty]
        rfl
  | cons b later ih =>
      obtain ⟨first, middle, before, hbyte, hanswers, hfirst⟩ := run_sendByte hline b bus
      obtain ⟨sendings, rest, extra, hbytes, hlater, hrun⟩ := ih
        ⟨middle, bus.events ++ (first.events (line.base + 5) line.base).toArray⟩
      refine ⟨first :: sendings, rest, before + extra, ?_, ?_, ?_⟩
      · rw [List.map_cons, hbyte, hbytes]
      · rw [List.flatMap_cons, List.append_assoc, hlater, ← List.append_assoc, hanswers,
          List.append_assoc, List.replicate_append_replicate]
      · rw [send_cons, run_bind_of_ok hfirst, hrun]
        simp

end

end SerialLine

end EarlyBoot
