import EarlyBoot.Proofs.Numeral.Draft
import EarlyBoot.Proofs.Numeral.Reading
import EarlyBoot.Proofs.Terminated.Order

/-!
The hexadecimal text of a word. Shifts and masks find the digits that repeated division finds, and
zeros stand for those that division does not come to. All texts have one length, and a later digit
has a later character in either case, so they come in the order of the numbers.
-/

namespace EarlyBoot.Numeral

/-- An uppercase letter for a letter that is a hexadecimal digit. Any other byte stays. -/
def raiseLetter (c : UInt8) : UInt8 :=
  (((Bytes.ofText "abcdef").zip (Bytes.ofText "ABCDEF")).lookup c).getD c

/-- Put the lowest nibbles of a word into the draft as digits, the highest of them first. -/
def Draft.pushNibbles (draft : Draft) (value : UInt32) (uppercase : Bool) : Nat → Except Fault Draft
  | 0 => .ok draft
  | count + 1 =>
    match digitCharacters[nibble value count]? with
    | none => .error .outOfBounds
    | some c => do
      let draft ← draft.push (if uppercase then Ascii.toUpper c else c)
      draft.pushNibbles value uppercase count

/-- Write the hexadecimal text of a word with every index checked. -/
def writeWordHex (value : UInt32) (uppercase : Bool) : Except Fault Bytes := do
  let draft ← Draft.empty.push '0'.toUInt8
  let draft ← draft.push 'x'.toUInt8
  (← draft.pushNibbles value uppercase 8).bytes

theorem nibble_lt (value : UInt32) (i : Nat) : nibble value i < 16 :=
  Nat.and_lt_two_pow _ (by decide : 0xF < 2 ^ 4)

/-- The loop puts one digit for each nibble into the draft, if there is room for them. -/
theorem Draft.Holds.pushNibbles {draft : Draft} {text : Bytes} (h : draft.Holds text)
    (value : UInt32) (uppercase : Bool) {count : Nat} (hroom : text.length + count ≤ capacity) :
    ∃ after, draft.pushNibbles value uppercase count = .ok after ∧
      after.Holds
        (text ++ (List.range count).reverse.map fun i => caseByte uppercase (nibble value i)) := by
  induction count generalizing draft text with
  | zero =>
      refine ⟨draft, rfl, ?_⟩
      rwa [List.range_zero, List.reverse_nil, List.map_nil, List.append_nil]
  | succ count ih =>
      have hlt : nibble value count < 36 := Nat.lt_trans (nibble_lt value count) (by decide)
      have hcharacter : digitCharacters[nibble value count]? =
          some (digitByte (nibble value count)) :=
        digitCharacters_getElem?.mpr ⟨hlt, rfl⟩
      obtain ⟨middle, hpush, hmiddle⟩ :=
        h.push (by omega) (caseByte uppercase (nibble value count))
      obtain ⟨after, hrest, hafter⟩ := ih hmiddle (by
        rw [List.length_append, List.length_singleton]
        omega)
      refine ⟨after, ?_, ?_⟩
      · rw [Draft.pushNibbles, hcharacter]
        change (draft.push (caseByte uppercase (nibble value count)) >>= _) = _
        rw [hpush]
        exact hrest
      · rw [List.range_succ, List.reverse_concat, List.map_cons, List.append_cons]
        exact hafter

/-- No index is out of range when the hexadecimal text of a word is written. -/
theorem writeWordHex_eq (value : UInt32) (uppercase : Bool) :
    writeWordHex value uppercase = .ok (wordHex value uppercase) := by
  obtain ⟨zero, hzero, hzeroHolds⟩ :=
    Draft.empty_holds.push (by decide : ([] : Bytes).length < capacity) '0'.toUInt8
  obtain ⟨marked, hmarked, hmarkedHolds⟩ :=
    hzeroHolds.push (by decide : ['0'.toUInt8].length < capacity) 'x'.toUInt8
  obtain ⟨after, hafter, hholds⟩ :=
    hmarkedHolds.pushNibbles value uppercase (by decide : 2 + 8 ≤ capacity)
  rw [writeWordHex, hzero]
  change (zero.push 'x'.toUInt8 >>= _) = _
  rw [hmarked]
  change (marked.pushNibbles value uppercase 8 >>= _) = _
  rw [hafter]
  exact hholds.bytes_eq

/-- The digits that division finds, with zeros in front, are the nibbles. -/
theorem leftpad_unsigned (value : UInt32) :
    (unsigned value 16).leftpad 8 '0'.toUInt8 =
      (fixedDigits .hexadecimal 8 value.toNat).map digitByte := by
  have hunsigned : unsigned value 16 = digits .hexadecimal value.toNat :=
    unsigned_value .hexadecimal value
  rw [hunsigned]
  exact padded_eq .hexadecimal value.toNat_lt

theorem raiseLetter_digitByte : ∀ d < 16, raiseLetter (digitByte d) = caseByte true d := by
  decide +kernel

theorem map_raiseLetter {ds : List Nat} (h : ∀ d ∈ ds, d < 16) :
    (ds.map digitByte).map raiseLetter = ds.map (caseByte true) := by
  rw [List.map_map]
  exact List.map_congr_left fun d hd => raiseLetter_digitByte d (h d hd)

theorem zero_notMem_wordHex (value : UInt32) (uppercase : Bool) :
    (0 : UInt8) ∉ wordHex value uppercase := fun hmem =>
  absurd (le_of_mem_wordHex hmem) (by decide)

/-- Texts of one length stay in their order, whatever is put behind them. -/
theorem append_lt_append {xs ys : Bytes} (hlength : xs.length = ys.length) (h : xs < ys)
    (as bs : Bytes) : xs ++ as < ys ++ bs := by
  induction xs generalizing ys with
  | nil =>
      rw [List.eq_nil_of_length_eq_zero hlength.symm] at h
      exact absurd h (List.lt_irrefl [])
  | cons x xs ih =>
      cases ys with
      | nil => cases hlength
      | cons y ys =>
          rw [List.cons_append, List.cons_append, List.cons_lt_cons_iff]
          rcases List.cons_lt_cons_iff.mp h with hfirst | ⟨hsame, hrest⟩
          · exact .inl hfirst
          · exact .inr ⟨hsame, ih (Nat.succ.inj hlength) hrest⟩

/-- At one width the digits of a smaller number come first, if the characters of the digits are in
the order of their values. -/
theorem map_fixedDigits_lt {base : Base} {character : Nat → UInt8}
    (hcharacter : ∀ e < base.value, ∀ d < e, character d < character e) {width m n : Nat}
    (hn : n < base.value ^ width) (h : m < n) :
    (fixedDigits base width m).map character < (fixedDigits base width n).map character := by
  induction width generalizing m n with
  | zero =>
      rw [Nat.pow_zero] at hn
      omega
  | succ width ih =>
      have hrest : n / base.value < base.value ^ width := by
        rw [Nat.pow_succ, Nat.mul_comm] at hn
        exact Nat.div_lt_of_lt_mul hn
      simp only [fixedDigits, List.map_append]
      rcases Nat.lt_or_eq_of_le (Nat.div_le_div_right (c := base.value) (Nat.le_of_lt h)) with
        hfirst | hsame
      · refine append_lt_append ?_ (ih hrest hfirst) _ _
        simp only [List.length_map, length_fixedDigits]
      · have hlast : m % base.value < n % base.value := by
          have hsmaller := Nat.div_add_mod m base.value
          have hgreater := Nat.div_add_mod n base.value
          rw [hsame] at hsmaller
          omega
        rw [hsame]
        refine List.append_left_lt ?_
        exact List.cons_lt_cons_iff.mpr
          (.inl (hcharacter _ (Nat.mod_lt n base.value_pos) _ hlast))

theorem caseByte_lt (uppercase : Bool) :
    ∀ e < 36, ∀ d < e, caseByte uppercase d < caseByte uppercase e := by
  cases uppercase <;> decide +kernel

theorem wordHex_lt {value other : UInt32} (uppercase : Bool) (h : value < other) :
    wordHex value uppercase < wordHex other uppercase := by
  rw [wordHex_eq, wordHex_eq]
  refine List.append_left_lt (map_fixedDigits_lt (fun e he => ?_) other.toNat_lt ?_)
  · exact caseByte_lt uppercase e (Nat.lt_of_lt_of_le he (by decide))
  · exact UInt32.lt_iff_toNat_lt.mp h

theorem compare_wordHex_neg {value other : UInt32} (uppercase : Bool) (h : value < other) :
    Terminated.compare (wordHex value uppercase) (wordHex other uppercase) < 0 := by
  rw [Terminated.compare_neg_iff, Terminated.content_eq_self (zero_notMem_wordHex value uppercase),
    Terminated.content_eq_self (zero_notMem_wordHex other uppercase)]
  exact wordHex_lt uppercase h

/-- The other order is the other sign, so the sign of the comparison is decided by the numbers. -/
theorem compare_wordHex_neg_iff (value other : UInt32) (uppercase : Bool) :
    Terminated.compare (wordHex value uppercase) (wordHex other uppercase) < 0 ↔
      value < other := by
  refine ⟨fun hneg => ?_, compare_wordHex_neg uppercase⟩
  rcases Nat.lt_trichotomy value.toNat other.toNat with hlt | hsame | hgt
  · exact UInt32.lt_iff_toNat_lt.mpr hlt
  · obtain rfl := UInt32.toNat_inj.mp hsame
    have hzero := (Terminated.compare_eq_zero_iff (wordHex value uppercase) _).mpr rfl
    omega
  · have hback := compare_wordHex_neg uppercase (UInt32.lt_iff_toNat_lt.mpr hgt)
    rw [Terminated.compare_swap] at hback
    omega

/-- The hexadecimal text of a word in both cases. It is a marker and the numeral of the word,
filled up with zeros to eight digits; uppercase concerns the letters among the digits only. It is
written without a check that fails, has ten bytes, and its digits are read as the word. So words
have the same text only if they are equal, and their texts come in the order of the words. -/
theorem wordHex_agrees_with_numeral (value other : UInt32) (uppercase : Bool) :
    let digits := (unsigned value 16).leftpad 8 '0'.toUInt8
    let text := wordHex value uppercase
    text = Bytes.ofText "0x" ++ (if uppercase then digits.map raiseLetter else digits) ∧
    writeWordHex value uppercase = .ok text ∧
    text.length = 10 ∧
    readUnsigned (text.drop 2) 16 = value ∧
    (text = wordHex other uppercase ↔ value = other) ∧
    (value < other ↔ Terminated.compare text (wordHex other uppercase) < 0) := by
  intro digits text
  have hlt : ∀ d ∈ fixedDigits .hexadecimal 8 value.toNat, d < 16 := fun _ hd =>
    lt_of_mem_fixedDigits .hexadecimal hd
  have hdigits : digits = (fixedDigits .hexadecimal 8 value.toNat).map digitByte :=
    leftpad_unsigned value
  have hread : ∀ word : UInt32, readUnsigned ((wordHex word uppercase).drop 2) 16 = word :=
    fun word => readUnsigned_wordHex word uppercase
  refine ⟨?_, writeWordHex_eq value uppercase, length_wordHex value uppercase, hread value,
    ⟨fun hsame => ?_, fun hsame => hsame ▸ rfl⟩,
    (compare_wordHex_neg_iff value other uppercase).symm⟩
  · rw [hdigits, map_raiseLetter hlt]
    cases uppercase <;> exact wordHex_eq value _
  · rw [← hread value, ← hread other]
    exact congrArg (fun bytes : Bytes => readUnsigned (bytes.drop 2) 16) hsame

end EarlyBoot.Numeral
