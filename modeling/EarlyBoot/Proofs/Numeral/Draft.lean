import EarlyBoot.Proofs.Stretch
import EarlyBoot.Proofs.Numeral.Positional
import EarlyBoot.Proofs.Terminated.InPlace
import EarlyBoot.Proofs.Word

/-!
Writing a numeral into its buffer. Digits are found from the last one to the first and put one
behind the other; then they are turned around where they stand, behind a sign if there is one. The
buffer has room for every byte, every character is in the table, and no digit is a terminator that
would stop the turning around.
-/

namespace EarlyBoot.Numeral

open Bytes (cutFrom cutTo cutFrom_of_le cutTo_of_le)

/-- A numeral in the making: its buffer, and how many bytes of it are used. -/
structure Draft where
  buffer : Bytes
  used : Nat

namespace Draft

def empty : Draft :=
  ⟨List.replicate capacity 0, 0⟩

def push (draft : Draft) (c : UInt8) : Except Fault Draft := do
  return ⟨← Region.store draft.buffer draft.used c, ← Word.add Word.bits draft.used 1⟩

def pushDigit (draft : Draft) (d : Nat) : Except Fault Draft :=
  match digitCharacters[d]? with
  | none => .error .outOfBounds
  | some c => draft.push c

/-- Put the digits of a number into the draft, the last one first. -/
def pushLowDigits (base : Base) (draft : Draft) (n : Nat) : Except Fault Draft := do
  let draft ← draft.pushDigit (n % base.value)
  if _h : n / base.value = 0 then return draft else pushLowDigits base draft (n / base.value)
termination_by n
decreasing_by
  have := base.two_le
  have hpos : n ≠ 0 := fun hzero => _h (by rw [hzero, Nat.zero_div])
  exact Nat.div_lt_self (Nat.pos_of_ne_zero hpos) (by omega)

/-- Turn around what is in the draft from `start` on. -/
def turnAround (draft : Draft) (start : Nat) : Except Fault Draft := do
  let written ← cutFrom (← cutTo draft.buffer draft.used) start
  let turned ← Terminated.reverseInPlace written
  return { draft with
    buffer := draft.buffer.take start ++ turned ++ draft.buffer.drop draft.used }

def pushDigits (base : Base) (draft : Draft) (n : Nat) : Except Fault Draft := do
  (← draft.pushLowDigits base n).turnAround draft.used

def bytes (draft : Draft) : Except Fault Bytes :=
  cutTo draft.buffer draft.used

end Draft

/-- Write an unsigned word with every index checked. -/
def writeUnsigned (value : UInt32) (base : Nat) : Except Fault Bytes :=
  match Base.ofNat? base with
  | none => Draft.empty.bytes
  | some b => do (← Draft.empty.pushDigits b value.toNat).bytes

/-- Write a signed word with every index checked. -/
def writeSigned (value : Int32) (base : Nat) : Except Fault Bytes :=
  match Base.ofNat? base with
  | none => Draft.empty.bytes
  | some b =>
    if value < 0 ∧ base = 10 then do
      let draft ← Draft.empty.push '-'.toUInt8
      (← draft.pushDigits b value.toInt.natAbs).bytes
    else do (← Draft.empty.pushDigits b value.toUInt32.toNat).bytes

/-- No digit is a terminator. -/
theorem zero_notMem_digits (base : Base) (n : Nat) : (0 : UInt8) ∉ digits base n := fun hmem =>
  absurd ((spells_digits base n).le_of_mem hmem) (by decide)

namespace Draft

/-- The draft has a text in the used part of its buffer, which is as long as ever. -/
structure Holds (draft : Draft) (text : Bytes) : Prop where
  split : ∃ behind, draft.buffer = text ++ behind
  used_eq : draft.used = text.length
  length_eq : draft.buffer.length = capacity

theorem empty_holds : empty.Holds [] where
  split := ⟨_, rfl⟩
  used_eq := rfl
  length_eq := List.length_replicate

section

variable {base : Base} {draft : Draft} {text : Bytes} (h : draft.Holds text)

include h

/-- A byte is put behind the text as long as there is room. -/
theorem Holds.push (hroom : text.length < capacity) (c : UInt8) :
    ∃ after, draft.push c = .ok after ∧ after.Holds (text ++ [c]) := by
  have hindex : draft.used < draft.buffer.length := by rwa [h.used_eq, h.length_eq]
  have hnext : Word.add Word.bits draft.used 1 = .ok (draft.used + 1) := by
    refine Word.fit_of_lt (Nat.lt_of_le_of_lt hindex ?_)
    rw [h.length_eq]
    decide
  refine ⟨⟨draft.buffer.set draft.used c, draft.used + 1⟩, ?_, ?_, ?_, ?_⟩
  · rw [Draft.push, Region.store, if_pos hindex, hnext]
    rfl
  · obtain ⟨behind, hbuffer⟩ := h.split
    cases behind with
    | nil => simp [h.used_eq, hbuffer] at hindex
    | cons b behind => exact ⟨behind, by simp [h.used_eq, hbuffer]⟩
  · simp [h.used_eq]
  · simp [h.length_eq]

theorem Holds.pushDigit (hroom : text.length < capacity) {d : Nat} (hd : d < base.value) :
    ∃ after, draft.pushDigit d = .ok after ∧ after.Holds (text ++ [digitByte d]) := by
  have hcharacter : digitCharacters[d]? = some (digitByte d) :=
    digitCharacters_getElem?.mpr ⟨Nat.lt_of_lt_of_le hd base.le_thirtySix, rfl⟩
  rw [Draft.pushDigit, hcharacter]
  exact h.push hroom (digitByte d)

/-- The loop puts all digits into the draft, if there is room for them. -/
theorem Holds.pushLowDigits {n : Nat}
    (hroom : text.length + (lowDigits base n).length ≤ capacity) :
    ∃ after, draft.pushLowDigits base n = .ok after ∧
      after.Holds (text ++ (lowDigits base n).map digitByte) := by
  -- The digits end with a number below the base and the loop with a quotient of zero: the cases
  -- are the same.
  fun_induction lowDigits base n generalizing draft text with
  | case1 n hlt =>
      rw [List.length_singleton] at hroom
      obtain ⟨after, hpush, hafter⟩ := h.pushDigit hroom (Nat.mod_lt n base.value_pos)
      rw [Nat.mod_eq_of_lt hlt] at hafter
      refine ⟨after, ?_, hafter⟩
      rw [Draft.pushLowDigits, hpush]
      exact dif_pos (Nat.div_eq_of_lt hlt)
  | case2 n hle ih =>
      rw [List.length_cons] at hroom
      obtain ⟨middle, hpush, hmiddle⟩ := h.pushDigit (by omega) (Nat.mod_lt n base.value_pos)
      obtain ⟨after, hrest, hafter⟩ := ih hmiddle (by
        rw [List.length_append, List.length_singleton]
        omega)
      rw [List.append_assoc] at hafter
      refine ⟨after, ?_, hafter⟩
      have hquotient : n / base.value ≠ 0 :=
        Nat.ne_of_gt (Nat.div_pos (Nat.le_of_not_lt hle) base.value_pos)
      rw [Draft.pushLowDigits, hpush]
      exact (dif_neg hquotient).trans hrest

theorem Holds.bytes_eq : draft.bytes = .ok text := by
  obtain ⟨behind, hbuffer⟩ := h.split
  have hle : draft.used ≤ draft.buffer.length := by
    rw [h.used_eq, hbuffer, List.length_append]
    exact Nat.le_add_right _ _
  rw [Draft.bytes, cutTo_of_le hle, hbuffer, h.used_eq, List.take_left]

end

/-- What has no zero byte is turned around as a whole. -/
theorem Holds.turnAround {draft : Draft} {front digits : Bytes}
    (h : draft.Holds (front ++ digits)) (hzero : (0 : UInt8) ∉ digits) :
    ∃ after, draft.turnAround front.length = .ok after ∧
      after.Holds (front ++ digits.reverse) := by
  have hbytes := h.bytes_eq
  rw [Draft.bytes] at hbytes
  have hreverse : Terminated.reverse digits = digits.reverse := by
    rw [Terminated.reverse, Terminated.length, Terminated.content_eq_self hzero,
      List.drop_length, List.append_nil]
  have hcut : cutFrom (front ++ digits) front.length = .ok digits := by
    rw [cutFrom_of_le (by simp), List.drop_left]
  obtain ⟨behind, hbuffer⟩ := h.split
  have hfront : draft.buffer.take front.length = front := by
    rw [hbuffer, List.append_assoc, List.take_left]
  refine ⟨⟨front ++ digits.reverse ++ draft.buffer.drop draft.used, draft.used⟩, ?_, ⟨_, rfl⟩,
    ?_, ?_⟩
  · rw [Draft.turnAround, hbytes]
    simp only [bind, Except.bind, hcut, Terminated.reverseInPlace_eq, hreverse, hfront]
    rfl
  · simp [h.used_eq]
  · have hlength := h.length_eq
    rw [hbuffer] at hlength
    rw [hbuffer, h.used_eq, List.drop_left]
    simpa using hlength

/-- The digits of a number come to stand behind the text, if there is room for them. -/
theorem Holds.pushDigits {base : Base} {draft : Draft} {text : Bytes} {n : Nat}
    (h : draft.Holds text) (hroom : text.length + (digits base n).length ≤ capacity) :
    ∃ after, draft.pushDigits base n = .ok after ∧ after.Holds (text ++ digits base n) := by
  have hlength : (lowDigits base n).length = (digits base n).length := by simp [digits]
  have hreverse : ((lowDigits base n).map digitByte).reverse = digits base n := by
    rw [digits, List.map_reverse]
  have hzero : (0 : UInt8) ∉ (lowDigits base n).map digitByte := fun hmem =>
    zero_notMem_digits base n (hreverse ▸ List.mem_reverse.mpr hmem)
  obtain ⟨middle, hpush, hmiddle⟩ := h.pushLowDigits (hlength ▸ hroom)
  obtain ⟨after, hturn, hafter⟩ := hmiddle.turnAround hzero
  rw [hreverse] at hafter
  refine ⟨after, ?_, hafter⟩
  rw [Draft.pushDigits, hpush, h.used_eq]
  exact hturn

/-- There is room for the digits of a word behind a sign. -/
theorem Holds.written {base : Base} {draft : Draft} {text : Bytes} {n : Nat}
    (h : draft.Holds text) (htext : text.length ≤ 1) (hn : n < 2 ^ 32) :
    (do (← draft.pushDigits base n).bytes) = .ok (text ++ digits base n) := by
  have hroom : text.length + (digits base n).length ≤ capacity := by
    have hdigits := length_digits_of_word base hn
    simp only [capacity]
    omega
  obtain ⟨after, hafter, hholds⟩ := h.pushDigits hroom
  rw [hafter]
  exact hholds.bytes_eq

end Draft

/-- No index is out of range when an unsigned numeral is written. -/
theorem writeUnsigned_eq (value : UInt32) (base : Nat) :
    writeUnsigned value base = .ok (unsigned value base) := by
  rw [writeUnsigned, unsigned]
  cases Base.ofNat? base with
  | none => exact Draft.empty_holds.bytes_eq
  | some b => exact Draft.empty_holds.written (Nat.zero_le 1) value.toNat_lt

/-- No index is out of range when a signed numeral is written. -/
theorem writeSigned_eq (value : Int32) (base : Nat) :
    writeSigned value base = .ok (signed value base) := by
  rw [writeSigned, signed]
  cases Base.ofNat? base with
  | none => exact Draft.empty_holds.bytes_eq
  | some b =>
      simp only
      split
      · obtain ⟨draft, hminus, hholds⟩ :=
          Draft.empty_holds.push (by decide : ([] : Bytes).length < capacity) '-'.toUInt8
        rw [hminus]
        exact hholds.written (Nat.le_refl 1) (natAbs_toInt_lt value)
      · exact Draft.empty_holds.written (Nat.zero_le 1) value.toUInt32.toNat_lt

end EarlyBoot.Numeral
