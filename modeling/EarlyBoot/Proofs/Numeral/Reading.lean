import EarlyBoot.Proofs.Bytes
import EarlyBoot.Proofs.Numeral.Digits

/-!
Reading back what was written. A numeral may stand behind white space and in front of anything
that does not go on with a digit of its base: reading skips the one, stops before the other, and
finds the number that was written, in every base and with either sign.
-/

namespace EarlyBoot.Numeral

/-- A text that does not go on with a digit of this base. It may be empty, or begin with the
terminator of a string. -/
def StopsDigits (base : Base) (behind : Bytes) : Prop :=
  ∀ c ∈ behind.head?, digitOf? base c = none

instance (base : Base) (behind : Bytes) : Decidable (StopsDigits base behind) :=
  inferInstanceAs (Decidable (∀ c ∈ behind.head?, digitOf? base c = none))

@[simp] theorem ofNat?_value (base : Base) : Base.ofNat? base.value = some base :=
  dif_pos ⟨base.two_le, base.le_thirtySix⟩

section

variable {base : Base} {blank s behind : Bytes} {ds : List Nat}

theorem StopsDigits.content (h : StopsDigits base behind) :
    StopsDigits base (Terminated.content behind) := by
  cases behind with
  | nil => exact h
  | cons c rest =>
      by_cases hzero : c = 0
      · simp [Terminated.content, StopsDigits, hzero]
      · simpa [Terminated.content, StopsDigits, hzero] using h

theorem StopsDigits.isSome_eq_false (h : StopsDigits base behind) :
    ∀ c ∈ behind.head?, (digitOf? base c).isSome = false := by
  intro c hc
  rw [h c hc]
  rfl

theorem Spells.isSome_eq_true (h : Spells base s ds) :
    ∀ c ∈ s, (digitOf? base c).isSome = true := fun _ hc =>
  Option.isSome_iff_exists.mpr (h.exists_digitOf? hc)

theorem foldl_appendDigit (h : Spells base s ds) (value : Nat) :
    s.foldl (appendDigit base) (UInt32.ofNat value) =
      UInt32.ofNat (ds.foldl (fun value d => value * base.value + d) value) := by
  induction s generalizing ds value with
  | nil =>
      obtain rfl : ds = [] := by simpa [Spells] using h.symm
      rfl
  | cons c rest ih =>
      cases ds with
      | nil => simp [Spells] at h
      | cons d ds =>
          simp only [Spells, List.map_cons, List.cons.injEq] at h
          have hstep : appendDigit base (UInt32.ofNat value) c =
              UInt32.ofNat (value * base.value + d) := by
            simp [appendDigit, h.1, UInt32.ofNat_add, UInt32.ofNat_mul]
          rw [List.foldl_cons, hstep, ih h.2]
          rfl

theorem magnitude_append (h : Spells base s ds) (hbehind : StopsDigits base behind) :
    magnitude base (s ++ behind) = UInt32.ofNat (valueOf base ds) := by
  rw [magnitude, (Bytes.span_append h.isSome_eq_true hbehind.isSome_eq_false).1]
  exact foldl_appendDigit h 0

theorem isSpace_eq_false {c : UInt8} (h : 33 ≤ c.toNat) : Ascii.isSpace c = false := by
  simp only [Ascii.isSpace, Bool.or_eq_false_iff, Bool.and_eq_false_iff, beq_eq_false_iff_ne,
    decide_eq_false_iff_not]
  constructor
  · rintro rfl
    exact absurd h (by decide)
  · right
    intro hlast
    have : c.toNat ≤ 13 := hlast
    omega

theorem splitSign_of_le {c : UInt8} (h : 48 ≤ c.toNat) (rest : Bytes) :
    splitSign (c :: rest) = (false, c :: rest) := by
  have hminus : c ≠ '-'.toUInt8 := by
    rintro rfl
    exact absurd h (by decide)
  have hplus : c ≠ '+'.toUInt8 := by
    rintro rfl
    exact absurd h (by decide)
  simp [splitSign, hminus, hplus]

/-- White space in front of a text is skipped, and the text is read as far as its terminator. -/
theorem read_blank_append (hblank : ∀ c ∈ blank, Ascii.isSpace c = true) {c : UInt8}
    {text : Bytes} (hgraph : ∀ b ∈ c :: text, 33 ≤ b.toNat) (behind : Bytes) :
    read (blank ++ (c :: text ++ behind)) base.value =
      ⟨(splitSign (c :: text ++ Terminated.content behind)).1,
        magnitude base (splitSign (c :: text ++ Terminated.content behind)).2⟩ := by
  have hzero : (0 : UInt8) ∉ blank ++ c :: text := by
    rw [List.mem_append]
    rintro (hspace | hshown)
    · exact absurd (hblank 0 hspace) (by decide)
    · exact absurd (hgraph 0 hshown) (by decide)
  have hcontent : Terminated.content (blank ++ (c :: text ++ behind)) =
      blank ++ (c :: text ++ Terminated.content behind) := by
    rw [← List.append_assoc, Terminated.content_append hzero, List.append_assoc]
  have hskip : (blank ++ (c :: text ++ Terminated.content behind)).dropWhile Ascii.isSpace =
      c :: text ++ Terminated.content behind := by
    rw [List.dropWhile_append_of_pos hblank, List.cons_append]
    exact List.dropWhile_cons_of_neg
      (by rw [isSpace_eq_false (hgraph c List.mem_cons_self)]; decide)
  simp only [read, ofNat?_value, hcontent, hskip]

/-- Digits are read as the number they stand for, modulo the size of a word. -/
theorem read_of_digits (hblank : ∀ c ∈ blank, Ascii.isSpace c = true) (h : Spells base s ds)
    (hs : s ≠ []) (hbehind : StopsDigits base behind) :
    read (blank ++ (s ++ behind)) base.value = ⟨false, UInt32.ofNat (valueOf base ds)⟩ := by
  obtain ⟨c, rest, rfl⟩ := List.exists_cons_of_ne_nil hs
  have hgraph : ∀ b ∈ c :: rest, 33 ≤ b.toNat := fun b hb =>
    Nat.le_trans (by decide) (h.le_of_mem hb)
  rw [read_blank_append hblank hgraph, List.cons_append,
    splitSign_of_le (h.le_of_mem List.mem_cons_self), ← List.cons_append,
    magnitude_append h hbehind.content]

/-- A minus or a plus may stand in front of the digits, and only a minus counts. -/
theorem read_of_sign (hblank : ∀ c ∈ blank, Ascii.isSpace c = true) (h : Spells base s ds)
    (hbehind : StopsDigits base behind) (negative : Bool) :
    read (blank ++ ((if negative then '-'.toUInt8 else '+'.toUInt8) :: s ++ behind)) base.value =
      ⟨negative, UInt32.ofNat (valueOf base ds)⟩ := by
  have hgraph : ∀ b ∈ (if negative then '-'.toUInt8 else '+'.toUInt8) :: s, 33 ≤ b.toNat := by
    intro b hb
    rcases List.mem_cons.mp hb with rfl | hdigit
    · cases negative <;> decide
    · exact Nat.le_trans (by decide) (h.le_of_mem hdigit)
  have hsplit (rest : Bytes) :
      splitSign ((if negative then '-'.toUInt8 else '+'.toUInt8) :: rest) = (negative, rest) := by
    cases negative <;> rfl
  rw [read_blank_append hblank hgraph, List.cons_append, hsplit,
    magnitude_append h hbehind.content]

end

/-- A string of digits alone reads as the number they stand for. -/
theorem readUnsigned_of_digits {base : Base} {s : Bytes} {ds : List Nat} (h : Spells base s ds)
    (hs : s ≠ []) : readUnsigned s base.value = UInt32.ofNat (valueOf base ds) := by
  have hread : read s base.value = ⟨false, UInt32.ofNat (valueOf base ds)⟩ := by
    have hend : StopsDigits base [] := by simp [StopsDigits]
    have hform := read_of_digits (List.forall_mem_nil _) h hs hend
    rwa [List.append_nil, List.nil_append] at hform
  rw [readUnsigned, hread]
  rfl

theorem unsigned_value (base : Base) (value : UInt32) :
    unsigned value base.value = digits base value.toNat := by
  simp [unsigned]

theorem readUnsigned_unsigned (base : Base) (value : UInt32) :
    readUnsigned (unsigned value base.value) base.value = value := by
  rw [unsigned_value, readUnsigned_of_digits (spells_digits base _) (digits_ne_nil base _),
    valueOf_lowDigits, UInt32.ofNat_toNat]

theorem readUnsigned_wordHex (value : UInt32) (uppercase : Bool) :
    readUnsigned ((wordHex value uppercase).drop 2) 16 = value := by
  have hmarker : (Bytes.ofText "0x").length = 2 := rfl
  have hdigits : Spells .hexadecimal
      ((fixedDigits .hexadecimal 8 value.toNat).map (caseByte uppercase))
      (fixedDigits .hexadecimal 8 value.toNat) :=
    spells_caseByte uppercase fun _ hd => lt_of_mem_fixedDigits .hexadecimal hd
  rw [wordHex_eq, List.drop_left' hmarker]
  refine (readUnsigned_of_digits hdigits (by simp [fixedDigits])).trans ?_
  rw [valueOf_fixedDigits .hexadecimal value.toNat_lt, UInt32.ofNat_toNat]

/-- A negative number in decimal is a minus and the digits of its magnitude. The least number has
a magnitude of its own, which is the number itself as a word. -/
theorem neg_toInt32_natAbs {value : Int32} (h : value < 0) :
    - (UInt32.ofNat value.toInt.natAbs).toInt32 = value := by
  have hnegative : value.toInt < 0 := by simpa [Int32.lt_iff_toInt_lt] using h
  have hmagnitude : (value.toInt.natAbs : Int) = - value.toInt := by omega
  rw [UInt32.toInt32_ofNat', ← Int32.ofInt_eq_ofNat, hmagnitude, Int32.ofInt_neg,
    Int32.ofInt_toInt, Int32.neg_neg]

section

variable {base : Base} {blank behind : Bytes} (hblank : ∀ c ∈ blank, Ascii.isSpace c = true)
  (hbehind : StopsDigits base behind)

include hblank hbehind

theorem read_digits (n : Nat) :
    read (blank ++ (digits base n ++ behind)) base.value = ⟨false, UInt32.ofNat n⟩ := by
  rw [read_of_digits hblank (spells_digits base n) (digits_ne_nil base n) hbehind,
    valueOf_lowDigits]

theorem read_sign_digits (n : Nat) (negative : Bool) :
    read (blank ++ ((if negative then '-'.toUInt8 else '+'.toUInt8) :: digits base n ++ behind))
      base.value = ⟨negative, UInt32.ofNat n⟩ := by
  rw [read_of_sign hblank (spells_digits base n) hbehind, valueOf_lowDigits]

theorem readSigned_signed (value : Int32) :
    readSigned (blank ++ (signed value base.value ++ behind)) base.value = value := by
  simp only [signed, ofNat?_value]
  split
  · rename_i hminus
    have hread := read_sign_digits hblank hbehind value.toInt.natAbs true
    rw [if_pos rfl] at hread
    rw [readSigned, hread]
    exact neg_toInt32_natAbs hminus.1
  · rw [readSigned, read_digits hblank hbehind, UInt32.ofNat_toNat]
    exact value.toInt32_toUInt32

end

/-- What is written in a base is read back in it, with white space in front and with anything
behind that does not go on with a digit of that base. -/
theorem read_written (base : Base) (blank behind : Bytes)
    (hblank : ∀ c ∈ blank, Ascii.isSpace c = true) (hbehind : StopsDigits base behind) :
    (∀ value : Int32,
      readSigned (blank ++ (signed value base.value ++ behind)) base.value = value) ∧
    ∀ value : UInt32,
      readUnsigned (blank ++ (unsigned value base.value ++ behind)) base.value = value ∧
      readUnsigned (blank ++ ('+'.toUInt8 :: unsigned value base.value ++ behind)) base.value =
        value := by
  refine ⟨readSigned_signed hblank hbehind, fun value => ?_⟩
  rw [unsigned_value]
  constructor
  · rw [readUnsigned, read_digits hblank hbehind, UInt32.ofNat_toNat]
    rfl
  · have hread := read_sign_digits hblank hbehind value.toNat false
    rw [if_neg Bool.false_ne_true] at hread
    rw [readUnsigned, hread, UInt32.ofNat_toNat]
    rfl

/-- The least number in decimal, in front of a unit, and the greatest word in base eight, in front
of a terminator with another digit behind it. -/
theorem read_written_extremes :
    let octal : Base := ⟨8, by decide, by decide⟩
    (∀ c ∈ Bytes.ofText "\t ", Ascii.isSpace c = true) ∧
    StopsDigits .decimal (Bytes.ofText "KB") ∧
    StopsDigits octal (0 :: Bytes.ofText "7") ∧
    readSigned (Bytes.ofText "\t -2147483648KB") 10 = Int32.minValue ∧
    readUnsigned (Bytes.ofText "\t +37777777777" ++ 0 :: Bytes.ofText "7") 8 = 0xFFFFFFFF := by
  intro octal
  have hblank : ∀ c ∈ Bytes.ofText "\t ", Ascii.isSpace c = true := by decide +kernel
  have hunit : StopsDigits .decimal (Bytes.ofText "KB") := by decide +kernel
  have hterminator : StopsDigits octal (0 :: Bytes.ofText "7") := by decide +kernel
  have hleast : Bytes.ofText "\t -2147483648KB" =
      Bytes.ofText "\t " ++ (signed Int32.minValue 10 ++ Bytes.ofText "KB") := by decide +kernel
  have hgreatest : Bytes.ofText "\t +37777777777" ++ 0 :: Bytes.ofText "7" =
      Bytes.ofText "\t " ++
        ('+'.toUInt8 :: unsigned 0xFFFFFFFF 8 ++ 0 :: Bytes.ofText "7") := by decide +kernel
  refine ⟨hblank, hunit, hterminator, ?_, ?_⟩
  · rw [hleast]
    exact (read_written .decimal _ _ hblank hunit).1 Int32.minValue
  · rw [hgreatest]
    exact ((read_written octal _ _ hblank hterminator).2 0xFFFFFFFF).2

end EarlyBoot.Numeral
