import EarlyBoot.Proofs.Stretch
import EarlyBoot.Proofs.Numeral.Positional
import EarlyBoot.Proofs.Word

/-!
Reading a number with a position in the string. White space is counted, a sign is looked up and
stepped over, the string is cut there, and the digits are taken one by one, each as a difference of
bytes. No cut is out of range, and no difference, sum or position leaves its word.
-/

namespace EarlyBoot.Numeral

open Bytes (cutFrom cutTo cutFrom_of_le cutTo_of_le)

/-- The value of a byte as a digit. It is the difference to the first digit or letter, and
an uppercase letter is made lowercase before. -/
def checkedValue? (c : UInt8) : Except Fault (Option Nat) :=
  if Ascii.isDigit c then do return some (← Word.sub c.toNat '0'.toNat)
  else if Ascii.isAlpha c then do
    let lower ← if Ascii.isUpper c then Word.add 8 c.toNat 32 else .ok c.toNat
    let letter ← Word.sub lower 'a'.toNat
    return some (← Word.add 32 letter 10)
  else .ok none

/-- Take digits from the start of a string, until a byte is none. -/
def scanDigits (base : Base) (word : UInt32) : Bytes → Except Fault UInt32
  | [] => .ok word
  | c :: rest => do
    match (← checkedValue? c).filter (· < base.value) with
    | none => return word
    | some d => scanDigits base (word * UInt32.ofNat base.value + UInt32.ofNat d) rest

/-- Step over a sign at a position, if there is one; `true` stands for a minus. -/
def stepSign (text : Bytes) (position : Nat) : Except Fault (Bool × Nat) :=
  match text[position]? with
  | none => .ok (false, position)
  | some c =>
    if c = '-'.toUInt8 then do return (true, ← Word.add Word.bits position 1)
    else if c = '+'.toUInt8 then do return (false, ← Word.add Word.bits position 1)
    else .ok (false, position)

/-- Read a number with every cut and every step of arithmetic checked. -/
def readChecked (s : Bytes) (base : Nat) : Except Fault Reading :=
  match Base.ofNat? base with
  | none => .ok .zero
  | some b => do
    let text ← cutTo s (Terminated.length s)
    let (negative, position) ← stepSign text (text.findIdx (! Ascii.isSpace ·))
    return ⟨negative, ← scanDigits b 0 (← cutFrom text position)⟩

/-- All arithmetic on a byte stays in a byte. -/
theorem checkedValue?_eq (c : UInt8) : checkedValue? c = .ok (Ascii.digitValue? c) := by
  refine Bytes.forall_byte ?_ c
  decide +kernel

theorem scanDigits_eq (base : Base) (word : UInt32) (s : Bytes) :
    scanDigits base word s =
      .ok ((s.takeWhile (digitOf? base · |>.isSome)).foldl (appendDigit base) word) := by
  induction s generalizing word with
  | nil => rfl
  | cons c rest ih =>
      rw [scanDigits, checkedValue?_eq]
      simp only [bind, Except.bind]
      change (match digitOf? base c with
        | none => Except.ok word
        | some d => scanDigits base (word * UInt32.ofNat base.value + UInt32.ofNat d) rest) = _
      cases hdigit : digitOf? base c with
      | none => simp [hdigit]
      | some d => simp [hdigit, ih, appendDigit]

/-- Stepping over a sign splits it off what stands at the position. -/
theorem stepSign_eq {text : Bytes} {position : Nat} (hposition : position ≤ text.length)
    (hroom : text.length < 2 ^ Word.bits) :
    ∃ after ≤ text.length,
      stepSign text position = .ok ((splitSign (text.drop position)).1, after) ∧
      text.drop after = (splitSign (text.drop position)).2 := by
  rw [stepSign]
  rcases Nat.lt_or_eq_of_le hposition with hlt | rfl
  · have hnext : Word.add Word.bits position 1 = .ok (position + 1) :=
      Word.fit_of_lt (Nat.lt_of_le_of_lt hlt hroom)
    rw [List.getElem?_eq_getElem hlt, List.drop_eq_getElem_cons hlt]
    simp only [splitSign, hnext]
    split
    · exact ⟨position + 1, hlt, rfl, rfl⟩
    · split
      · exact ⟨position + 1, hlt, rfl, rfl⟩
      · exact ⟨position, hposition, rfl, List.drop_eq_getElem_cons hlt⟩
  · rw [List.getElem?_eq_none (Nat.le_refl _), List.drop_length]
    exact ⟨text.length, Nat.le_refl _, rfl, List.drop_length⟩

/-- No check fails in a buffer whose length is a word, and the number is the one that is read. -/
theorem readChecked_eq {s : Bytes} (hroom : s.length < 2 ^ Word.bits) (base : Nat) :
    readChecked s base = .ok (read s base) := by
  have hlength : Terminated.length s ≤ s.length := Terminated.length_le s
  have hblank : (Terminated.content s).findIdx (! Ascii.isSpace ·) ≤
      (Terminated.content s).length := List.findIdx_le_length
  have hskip : (Terminated.content s).drop
      ((Terminated.content s).findIdx (! Ascii.isSpace ·)) =
      (Terminated.content s).dropWhile Ascii.isSpace := by
    simp only [List.dropWhile_eq_drop_findIdx_not]
  obtain ⟨after, hafter, hstep, hrest⟩ := stepSign_eq hblank (Nat.lt_of_le_of_lt hlength hroom)
  rw [hskip] at hstep hrest
  rw [readChecked, read]
  cases Base.ofNat? base with
  | none => rfl
  | some b =>
      simp only [cutTo_of_le hlength, Terminated.take_length, bind, Except.bind, hstep,
        cutFrom_of_le hafter, hrest, scanDigits_eq]
      rfl

end EarlyBoot.Numeral
