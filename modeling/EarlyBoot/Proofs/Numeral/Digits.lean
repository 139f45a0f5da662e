import Mathlib.Algebra.Group.Nat.Defs
import Mathlib.Data.List.TakeWhile
import EarlyBoot.Numeral.Parse
import EarlyBoot.Proofs.Terminated

/-!
The digits of a number, as many as it has and at a fixed width. A number that is padded with zeros
shows its digits at that width; in base sixteen these are the nibbles of a word, whichever way
they are found. Digits stand for the number that they are the digits of.
-/

namespace EarlyBoot

theorem Base.value_pos (base : Base) : 0 < base.value :=
  Nat.lt_of_lt_of_le Nat.two_pos base.two_le

theorem Base.one_lt_value (base : Base) : 1 < base.value :=
  base.two_le

namespace Numeral

/-- The lowest `width` digits of a number, the last one at the end. -/
def fixedDigits (base : Base) : Nat → Nat → List Nat
  | 0, _ => []
  | width + 1, n => fixedDigits base width (n / base.value) ++ [n % base.value]

/-- The number that digits stand for, the first one worth most. -/
def valueOf (base : Base) (ds : List Nat) : Nat :=
  ds.foldl (fun value d => value * base.value + d) 0

section

variable (base : Base)

theorem length_fixedDigits (width n : Nat) : (fixedDigits base width n).length = width := by
  induction width generalizing n with
  | zero => rfl
  | succ width ih => simp [fixedDigits, ih]

theorem lt_of_mem_fixedDigits {width n d : Nat} (h : d ∈ fixedDigits base width n) :
    d < base.value := by
  have hpos := base.value_pos
  induction width generalizing n with
  | zero => simp [fixedDigits] at h
  | succ width ih =>
      simp only [fixedDigits, List.mem_append, List.mem_singleton] at h
      rcases h with hrest | hlast
      · exact ih hrest
      · rw [hlast]
        exact Nat.mod_lt _ hpos

theorem fixedDigits_zero (width : Nat) :
    fixedDigits base width 0 = List.replicate width 0 := by
  induction width with
  | zero => rfl
  | succ width ih => rw [fixedDigits, Nat.zero_div, Nat.zero_mod, ih, List.replicate_succ']

theorem valueOf_append (ds : List Nat) (d : Nat) :
    valueOf base (ds ++ [d]) = valueOf base ds * base.value + d := by
  rw [valueOf, List.foldl_append]
  rfl

theorem valueOf_fixedDigits {width n : Nat} (h : n < base.value ^ width) :
    valueOf base (fixedDigits base width n) = n := by
  induction width generalizing n with
  | zero =>
      simp only [Nat.pow_zero] at h
      simp only [fixedDigits, valueOf, List.foldl_nil]
      omega
  | succ width ih =>
      have hrest : n / base.value < base.value ^ width := by
        rw [Nat.pow_succ, Nat.mul_comm] at h
        exact Nat.div_lt_of_lt_mul h
      rw [fixedDigits, valueOf_append, ih hrest]
      exact Nat.div_add_mod' n base.value

theorem lt_of_mem_lowDigits {n d : Nat} (h : d ∈ lowDigits base n) : d < base.value := by
  have hpos := base.value_pos
  fun_induction lowDigits base n with
  | case1 n hlt =>
      rw [List.mem_singleton] at h
      rwa [h]
  | case2 n hle ih =>
      rcases List.mem_cons.mp h with rfl | hrest
      · exact Nat.mod_lt _ hpos
      · exact ih hrest

theorem valueOf_lowDigits (n : Nat) : valueOf base (lowDigits base n).reverse = n := by
  fun_induction lowDigits base n with
  | case1 n hlt => simp [valueOf]
  | case2 n hle ih =>
      rw [List.reverse_cons, valueOf_append, ih]
      exact Nat.div_add_mod' n base.value

theorem digits_ne_nil (n : Nat) : digits base n ≠ [] := by
  rw [digits, lowDigits]
  split <;> simp

theorem digits_of_lt {n : Nat} (h : n < base.value) : digits base n = [digitByte n] := by
  rw [digits, lowDigits, if_pos h]
  rfl

theorem digits_of_le {n : Nat} (h : base.value ≤ n) :
    digits base n = digits base (n / base.value) ++ [digitByte (n % base.value)] := by
  rw [digits, lowDigits, if_neg (Nat.not_lt.mpr h)]
  simp [digits]

/-- Filling up with zeros on the left shows exactly the digits at the width that is filled. -/
theorem padded_eq {width n : Nat} (h : n < base.value ^ (width + 1)) :
    padded base (width + 1) n = (fixedDigits base (width + 1) n).map digitByte := by
  induction width generalizing n with
  | zero =>
      rw [Nat.zero_add, Nat.pow_one] at h
      rw [padded, digits_of_lt base h]
      simp [fixedDigits, List.leftpad, Nat.mod_eq_of_lt h]
  | succ width ih =>
      by_cases hlt : n < base.value
      · rw [padded, digits_of_lt base hlt, fixedDigits, Nat.div_eq_of_lt hlt,
          fixedDigits_zero, Nat.mod_eq_of_lt hlt]
        simp [List.leftpad]
      · have hrest : n / base.value < base.value ^ (width + 1) := by
          rw [Nat.pow_succ, Nat.mul_comm] at h
          exact Nat.div_lt_of_lt_mul h
        rw [padded, digits_of_le base (Nat.le_of_not_lt hlt), fixedDigits, List.map_append,
          ← ih hrest, padded]
        simp [List.leftpad]

/-- A number below a power of the base has at most as many digits as the exponent. -/
theorem length_digits_le {width n : Nat} (h : n < base.value ^ (width + 1)) :
    (digits base n).length ≤ width + 1 := by
  have hpadded := congrArg List.length (padded_eq base h)
  rw [padded, List.length_leftpad, List.length_map, length_fixedDigits] at hpadded
  omega

end

theorem length_digits_of_word (base : Base) {n : Nat} (h : n < 2 ^ 32) :
    (digits base n).length ≤ 32 :=
  length_digits_le base (Nat.lt_of_lt_of_le h (Nat.pow_le_pow_left base.two_le 32))

/-- There is room for every unsigned numeral, in any base. -/
theorem length_unsigned_le (value : UInt32) (base : Nat) :
    (unsigned value base).length ≤ capacity := by
  unfold unsigned
  split
  · exact Nat.zero_le _
  · exact Nat.le_trans (length_digits_of_word _ value.toNat_lt) (by decide)

theorem natAbs_toInt_lt (value : Int32) : value.toInt.natAbs < 2 ^ 32 := by
  have hle := value.le_toInt
  have hlt := value.toInt_lt
  omega

/-- There is room for every signed numeral with its sign, in any base. -/
theorem length_signed_le (value : Int32) (base : Nat) :
    (signed value base).length ≤ capacity := by
  unfold signed
  split
  · exact Nat.zero_le _
  · split
    · exact Nat.le_trans (Nat.succ_le_succ (length_digits_of_word _ (natAbs_toInt_lt value)))
        (by decide)
    · exact Nat.le_trans (length_digits_of_word _ value.toUInt32.toNat_lt) (by decide)

theorem digitValue?_digitByte : ∀ d < 36, Ascii.digitValue? (digitByte d) = some d := by
  decide

theorem digitValue?_toUpper_digitByte :
    ∀ d < 36, Ascii.digitValue? (Ascii.toUpper (digitByte d)) = some d := by
  decide

/-- The byte for a digit in a word, in either case. -/
def caseByte (uppercase : Bool) (d : Nat) : UInt8 :=
  if uppercase then Ascii.toUpper (digitByte d) else digitByte d

theorem digitOf?_caseByte {base : Base} (uppercase : Bool) {d : Nat} (h : d < base.value) :
    digitOf? base (caseByte uppercase d) = some d := by
  have hlt : d < 36 := Nat.lt_of_lt_of_le h base.le_thirtySix
  cases uppercase with
  | false => simp [digitOf?, caseByte, digitValue?_digitByte d hlt, h]
  | true => simp [digitOf?, caseByte, digitValue?_toUpper_digitByte d hlt, h]

/-- A digit lies above all white space and both signs. -/
theorem le_of_digitOf? {base : Base} {c : UInt8} {d : Nat} (h : digitOf? base c = some d) :
    48 ≤ c.toNat := by
  have hvalue : Ascii.digitValue? c = some d := (Option.filter_eq_some_iff.mp h).1
  by_cases hdigit : Ascii.isDigit c = true
  · simp only [Ascii.isDigit, Bool.and_eq_true, decide_eq_true_eq] at hdigit
    exact hdigit.1
  · by_cases halpha : Ascii.isAlpha c = true
    · simp only [Ascii.isAlpha, Ascii.isLower, Ascii.isUpper, Bool.or_eq_true, Bool.and_eq_true,
        decide_eq_true_eq] at halpha
      rcases halpha with hlower | hupper
      · exact Nat.le_trans (by decide : 48 ≤ 97) hlower.1
      · exact Nat.le_trans (by decide : 48 ≤ 65) hupper.1
    · simp [Ascii.digitValue?, hdigit, halpha] at hvalue

/-- A string of digits with these values, with letters in either case. -/
def Spells (base : Base) (s : Bytes) (ds : List Nat) : Prop :=
  s.map (digitOf? base) = ds.map some

theorem spells_caseByte {base : Base} (uppercase : Bool) {ds : List Nat}
    (h : ∀ d ∈ ds, d < base.value) : Spells base (ds.map (caseByte uppercase)) ds := by
  rw [Spells, List.map_map]
  exact List.map_congr_left fun d hd => digitOf?_caseByte uppercase (h d hd)

theorem spells_digits (base : Base) (n : Nat) :
    Spells base (digits base n) (lowDigits base n).reverse :=
  spells_caseByte false fun _ hd => lt_of_mem_lowDigits base (List.mem_reverse.mp hd)

theorem Spells.exists_digitOf? {base : Base} {s : Bytes} {ds : List Nat} (h : Spells base s ds)
    {c : UInt8} (hc : c ∈ s) : ∃ d, digitOf? base c = some d := by
  have hmem : digitOf? base c ∈ ds.map some := h ▸ List.mem_map_of_mem hc
  obtain ⟨d, _, hd⟩ := List.mem_map.mp hmem
  exact ⟨d, hd.symm⟩

theorem Spells.le_of_mem {base : Base} {s : Bytes} {ds : List Nat} (h : Spells base s ds)
    {c : UInt8} (hc : c ∈ s) : 48 ≤ c.toNat :=
  le_of_digitOf? (h.exists_digitOf? hc).choose_spec

/-- The nibbles of a word are its eight digits in base sixteen. -/
theorem wordHex_eq (value : UInt32) (uppercase : Bool) :
    wordHex value uppercase =
      Bytes.ofText "0x" ++
        (fixedDigits .hexadecimal 8 value.toNat).map (caseByte uppercase) := by
  have hnibble : ∀ i, nibble value i = value.toNat / 16 ^ i % 16 := by
    intro i
    rw [nibble, Nat.shiftRight_eq_div_pow, Nat.pow_mul]
    exact Nat.and_two_pow_sub_one_eq_mod _ 4
  simp [wordHex, fixedDigits, hnibble, caseByte, Base.hexadecimal, Nat.div_div_eq_div_mul]

@[simp] theorem length_wordHex (value : UInt32) (uppercase : Bool) :
    (wordHex value uppercase).length = 10 := by
  rw [wordHex_eq, List.length_append, List.length_map, length_fixedDigits]
  rfl

/-- The numeral of a word is made of characters from zero on, so it controls nothing. -/
theorem le_of_mem_wordHex {value : UInt32} {uppercase : Bool} {c : UInt8}
    (h : c ∈ wordHex value uppercase) : 48 ≤ c.toNat := by
  rw [wordHex_eq, List.mem_append] at h
  rcases h with hmarker | hdigit
  · have hbytes : Bytes.ofText "0x" = [48, 120] := rfl
    rw [hbytes] at hmarker
    simp only [List.mem_cons, List.not_mem_nil, or_false] at hmarker
    rcases hmarker with rfl | rfl <;> decide
  · exact (spells_caseByte uppercase fun _ hd => lt_of_mem_fixedDigits .hexadecimal hd).le_of_mem
      hdigit

theorem isPrintable_caseByte (uppercase : Bool) {d : Nat} (h : d < 36) :
    Ascii.isPrintable (caseByte uppercase d) = true := by
  have hall : ∀ d < 36, Ascii.isPrintable (digitByte d) = true ∧
      Ascii.isPrintable (Ascii.toUpper (digitByte d)) = true := by decide
  cases uppercase with
  | false => exact (hall d h).1
  | true => exact (hall d h).2

theorem isPrintable_of_mem_digits {base : Base} {n : Nat} {c : UInt8} (h : c ∈ digits base n) :
    Ascii.isPrintable c = true := by
  obtain ⟨d, hd, rfl⟩ := List.mem_map.mp h
  have hlt := lt_of_mem_lowDigits base (List.mem_reverse.mp hd)
  exact isPrintable_caseByte false (Nat.lt_of_lt_of_le hlt base.le_thirtySix)

theorem isPrintable_of_mem_unsigned {value : UInt32} {base : Nat} {c : UInt8}
    (h : c ∈ unsigned value base) : Ascii.isPrintable c = true := by
  unfold unsigned at h
  split at h
  · cases h
  · exact isPrintable_of_mem_digits h

theorem isPrintable_of_mem_signed {value : Int32} {base : Nat} {c : UInt8}
    (h : c ∈ signed value base) : Ascii.isPrintable c = true := by
  unfold signed at h
  split at h
  · cases h
  · split at h
    · rcases List.mem_cons.mp h with rfl | hdigit
      · decide
      · exact isPrintable_of_mem_digits hdigit
    · exact isPrintable_of_mem_digits h

theorem isPrintable_of_mem_marker : ∀ c ∈ Bytes.ofText "0x", Ascii.isPrintable c = true := by
  decide +kernel

theorem isPrintable_of_mem_prefixedHex {width n : Nat} {c : UInt8} (h : c ∈ prefixedHex width n) :
    Ascii.isPrintable c = true := by
  rw [prefixedHex, padded, List.leftpad, List.mem_append, List.mem_append] at h
  rcases h with hmarker | hzero | hdigit
  · exact isPrintable_of_mem_marker c hmarker
  · rw [List.eq_of_mem_replicate hzero]
    decide
  · exact isPrintable_of_mem_digits hdigit

theorem isPrintable_of_mem_wordHex {value : UInt32} {uppercase : Bool} {c : UInt8}
    (h : c ∈ wordHex value uppercase) : Ascii.isPrintable c = true := by
  rw [wordHex_eq, List.mem_append] at h
  rcases h with hmarker | hdigit
  · exact isPrintable_of_mem_marker c hmarker
  · obtain ⟨d, hd, rfl⟩ := List.mem_map.mp hdigit
    have hlt : d < 16 := lt_of_mem_fixedDigits .hexadecimal hd
    exact isPrintable_caseByte uppercase (by omega)

section

variable {width n : Nat} (h : n < 16 ^ (width + 1))

include h

theorem prefixedHex_eq : prefixedHex (width + 1) n =
    Bytes.ofText "0x" ++ (fixedDigits .hexadecimal (width + 1) n).map digitByte := by
  rw [prefixedHex, padded_eq .hexadecimal h]

theorem length_prefixedHex : (prefixedHex (width + 1) n).length = 2 + (width + 1) := by
  rw [prefixedHex_eq h, List.length_append, List.length_map, length_fixedDigits]
  rfl

end

/-- Padding to eight digits and going through the nibbles write a word alike. -/
theorem prefixedUpperHex_eq_wordHex (value : UInt32) :
    prefixedUpperHex 8 value.toNat = wordHex value true := by
  rw [wordHex_eq, prefixedUpperHex, padded_eq .hexadecimal value.toNat_lt, List.map_map]
  rfl

end Numeral

end EarlyBoot
