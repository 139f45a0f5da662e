import EarlyBoot.Proofs.Numeral.Draft
import EarlyBoot.Proofs.Numeral.Reading

/-!
The numeral of a number is the only one without a leading zero. It has as many digits as the number
needs in its base, and whoever reads a text of that form and writes the number again gets the text
back.
-/

namespace EarlyBoot.Numeral

/-- A text of digits of a base, none of them uppercase, that does not begin with a zero unless it
is the zero. -/
structure Canonical (base : Base) (text : Bytes) : Prop where
  ne_nil : text ≠ []
  characters : ∀ c ∈ text, c ∈ digitCharacters.take base.value
  zero : text.head? = some '0'.toUInt8 → text = ['0'.toUInt8]

/-- The number that a text of such digits stands for: each character is worth its place in the list
of digits, the first one most. -/
def worth (base : Base) (text : Bytes) : Nat :=
  Nat.ofDigits base.value (text.map digitCharacters.idxOf).reverse

section

variable {base : Base}

theorem digitByte_eq_zero_iff : ∀ d < 36, digitByte d = '0'.toUInt8 ↔ d = 0 := by
  decide

theorem idxOf_digitByte : ∀ d < 36, digitCharacters.idxOf (digitByte d) = d := by
  decide +kernel

theorem mem_take_digitCharacters {c : UInt8} :
    c ∈ digitCharacters.take base.value ↔ ∃ d < base.value, digitByte d = c := by
  have hle := base.le_thirtySix
  rw [digitCharacters_eq_map, ← List.map_take, List.take_range, Nat.min_eq_left hle]
  simp

/-- Digits of a base in a row are digits with values below the base. -/
theorem exists_values {text : Bytes} (h : ∀ c ∈ text, c ∈ digitCharacters.take base.value) :
    ∃ ds : List Nat, (∀ d ∈ ds, d < base.value) ∧ text = ds.map digitByte := by
  induction text with
  | nil => exact ⟨[], by simp⟩
  | cons c rest ih =>
      obtain ⟨hc, hrest⟩ := List.forall_mem_cons.mp h
      obtain ⟨d, hd, rfl⟩ := mem_take_digitCharacters.mp hc
      obtain ⟨ds, hds, rfl⟩ := ih hrest
      exact ⟨d :: ds, List.forall_mem_cons.mpr ⟨hd, hds⟩, rfl⟩

theorem worth_map_digitByte {ds : List Nat} (h : ∀ d ∈ ds, d < base.value) :
    worth base (ds.map digitByte) = valueOf base ds := by
  have hindices : (ds.map digitByte).map digitCharacters.idxOf = ds.map id := by
    rw [List.map_map]
    exact List.map_congr_left fun d hd =>
      idxOf_digitByte d (Nat.lt_of_lt_of_le (h d hd) base.le_thirtySix)
  rw [worth, hindices, List.map_id, valueOf_eq_ofDigits]

/-- Digits without a leading zero are the digits of the number that they stand for. -/
theorem lowDigits_valueOf {ds : List Nat} (hne : ds ≠ []) (h : ∀ d ∈ ds, d < base.value)
    (hzero : ds.head? = some 0 → ds = [0]) : lowDigits base (valueOf base ds) = ds.reverse := by
  -- Arithmetic has no digits for zero, so a lone zero stands apart.
  by_cases hlone : ds = [0]
  · subst hlone
    have hvalue : valueOf base [0] = 0 := by simp [valueOf]
    rw [hvalue, lowDigits, if_pos base.value_pos]
    rfl
  · have hlast : ∀ hne' : ds.reverse ≠ [], ds.reverse.getLast hne' ≠ 0 := by
      intro _ hlast
      rw [List.getLast_reverse] at hlast
      exact hlone (hzero (List.head?_eq_some_head hne ▸ congrArg some hlast))
    have hdigits : Nat.digits base.value (valueOf base ds) = ds.reverse := by
      rw [valueOf_eq_ofDigits]
      have hlt : ∀ d ∈ ds.reverse, d < base.value := fun d hd => h d (List.mem_reverse.mp hd)
      exact Nat.digits_ofDigits _ base.one_lt_value _ hlt hlast
    have hvalue : valueOf base ds ≠ 0 := by
      intro hvalue
      rw [hvalue, Nat.digits_zero] at hdigits
      exact hne (List.reverse_eq_nil_iff.mp hdigits.symm)
    rw [lowDigits_eq_digits base hvalue, hdigits]

/-- A text without a leading zero is the numeral of the number that it stands for. -/
theorem Canonical.digits_worth {text : Bytes} (h : Canonical base text) :
    digits base (worth base text) = text := by
  obtain ⟨ds, hds, rfl⟩ := exists_values h.characters
  have hne : ds ≠ [] := fun hnil => h.ne_nil (hnil ▸ rfl)
  have hzero : ds.head? = some 0 → ds = [0] := by
    intro hhead
    have htext := h.zero (by rw [List.head?_map, hhead]; rfl)
    obtain ⟨d, rfl, hd⟩ := List.map_eq_singleton_iff.mp htext
    exact congrArg (fun d => [d]) (Option.some.inj hhead)
  rw [worth_map_digitByte hds, digits, lowDigits_valueOf hne hds hzero, List.reverse_reverse]

variable (base)

theorem mem_take_of_mem_digits {n : Nat} {c : UInt8} (h : c ∈ digits base n) :
    c ∈ digitCharacters.take base.value := by
  obtain ⟨d, hd, rfl⟩ := List.mem_map.mp h
  exact mem_take_digitCharacters.mpr
    ⟨d, lt_of_mem_lowDigits base (List.mem_reverse.mp hd), rfl⟩

theorem worth_digits (n : Nat) : worth base (digits base n) = n := by
  have hlt : ∀ d ∈ (lowDigits base n).reverse, d < base.value := fun _ hd =>
    lt_of_mem_lowDigits base (List.mem_reverse.mp hd)
  rw [digits, worth_map_digitByte hlt, valueOf_lowDigits]

theorem head?_digits_ne_zero {n : Nat} (h : n ≠ 0) :
    (digits base n).head? ≠ some '0'.toUInt8 := by
  intro hhead
  rw [digits, List.head?_map, List.head?_reverse, lowDigits_eq_digits base h,
    List.getLast?_eq_some_getLast (Nat.digits_ne_nil_iff_ne_zero.mpr h)] at hhead
  have hlt : (Nat.digits base.value n).getLast (Nat.digits_ne_nil_iff_ne_zero.mpr h) <
      base.value := Nat.digits_lt_base base.one_lt_value (List.getLast_mem _)
  have hzero := (digitByte_eq_zero_iff _ (Nat.lt_of_lt_of_le hlt base.le_thirtySix)).mp
    (Option.some.inj hhead)
  exact Nat.getLast_digit_ne_zero base.value h hzero

/-- A number other than zero lies between two powers of the base, and the exponent of the greater
one counts its digits. -/
theorem pow_le_and_lt_pow {n : Nat} (h : n ≠ 0) :
    base.value ^ ((digits base n).length - 1) ≤ n ∧ n < base.value ^ (digits base n).length := by
  have hlength : (digits base n).length = Nat.log base.value n + 1 := by
    rw [digits, List.length_map, List.length_reverse, lowDigits_eq_digits base h,
      Nat.length_digits _ _ base.one_lt_value h]
  rw [hlength]
  exact ⟨Nat.pow_log_le_self _ h, Nat.lt_pow_succ_log_self base.one_lt_value n⟩

theorem digits_zero : digits base 0 = ['0'.toUInt8] :=
  digits_of_lt base base.value_pos

theorem canonical_digits (n : Nat) : Canonical base (digits base n) where
  ne_nil := digits_ne_nil base n
  characters _ hc := mem_take_of_mem_digits base hc
  zero hhead := by
    rcases Nat.eq_zero_or_pos n with rfl | hpos
    · exact digits_zero base
    · exact absurd hhead (head?_digits_ne_zero base (Nat.ne_of_gt hpos))

end

/-- A text without a leading zero is read as the number that it stands for. -/
theorem Canonical.readUnsigned_append {base : Base} {text behind : Bytes}
    (h : Canonical base text) (hbehind : StopsDigits base behind) :
    readUnsigned (text ++ behind) base.value = UInt32.ofNat (worth base text) := by
  obtain ⟨ds, hds, rfl⟩ := exists_values h.characters
  have hread := read_of_digits (List.forall_mem_nil _) (spells_caseByte false hds) h.ne_nil hbehind
  rw [List.nil_append] at hread
  change read (ds.map digitByte ++ behind) base.value = _ at hread
  rw [readUnsigned, hread, worth_map_digitByte hds]
  rfl

/-- Writing what was read from a text without a leading zero gives the text back. -/
theorem Canonical.unsigned_readUnsigned {base : Base} {text behind : Bytes}
    (h : Canonical base text) (hword : worth base text < 2 ^ 32)
    (hbehind : StopsDigits base behind) :
    unsigned (readUnsigned (text ++ behind) base.value) base.value = text := by
  have hnat : (UInt32.ofNat (worth base text)).toNat = worth base text :=
    UInt32.toNat_ofNat_of_lt' hword
  rw [h.readUnsigned_append hbehind, unsigned_value, hnat, h.digits_worth]

theorem stopsDigits_terminator (base : Base) (behind : Bytes) :
    StopsDigits base (0 :: behind) := by
  have hnone : Ascii.digitValue? 0 = none := by decide
  simp [StopsDigits, digitOf?, hnone]

/-- A minus is no digit. -/
theorem head?_digits_ne_minus (base : Base) (n : Nat) :
    (digits base n).head? ≠ some '-'.toUInt8 := fun hhead =>
  absurd ((spells_digits base n).le_of_mem (List.mem_of_mem_head? hhead)) (by decide)

/-- A negative decimal is a minus and the numeral of its magnitude, which is a word. -/
theorem signed_of_minus {base : Base} {value : Int32} (h : value < 0 ∧ base.value = 10) :
    ∃ magnitude : UInt32, (magnitude.toNat : Int) = - value.toInt ∧
      signed value base.value = '-'.toUInt8 :: unsigned magnitude 10 := by
  have hnegative : value.toInt < 0 := by simpa [Int32.lt_iff_toInt_lt] using h.1
  have hnat : (UInt32.ofNat value.toInt.natAbs).toNat = value.toInt.natAbs :=
    UInt32.toNat_ofNat_of_lt' (natAbs_toInt_lt value)
  refine ⟨UInt32.ofNat value.toInt.natAbs, by rw [hnat]; omega, ?_⟩
  have hdecimal : unsigned (UInt32.ofNat value.toInt.natAbs) 10 =
      digits base value.toInt.natAbs := by rw [← h.2, unsigned_value, hnat]
  simp only [signed, ofNat?_value, if_pos h, hdecimal]

theorem signed_of_not_minus {base : Base} {value : Int32} (h : ¬ (value < 0 ∧ base.value = 10)) :
    signed value base.value = unsigned value.toUInt32 base.value := by
  simp only [signed, ofNat?_value, if_neg h, unsigned_value]

/-- What a numeral looks like, and that it is the only one for its number. Every word has between
one and 32 digits from the beginning of the list, none too many, and writing it stays in its
buffer; a minus stands in front of a negative decimal only. A text of this form whose number is a
word is what is written when the number that is read from it is written. -/
theorem numerals_are_canonical (base : Base) :
    (∀ value : UInt32,
      let text := unsigned value base.value
      writeUnsigned value base.value = .ok text ∧
      1 ≤ text.length ∧ text.length ≤ 32 ∧
      Canonical base text ∧ worth base text = value.toNat ∧
      (value = 0 → text = Bytes.ofText "0") ∧
      (value ≠ 0 → text.head? ≠ some '0'.toUInt8 ∧
        base.value ^ (text.length - 1) ≤ value.toNat ∧
        value.toNat < base.value ^ text.length)) ∧
    (∀ value : Int32,
      let text := signed value base.value
      writeSigned value base.value = .ok text ∧
      (text.head? = some '-'.toUInt8 ↔ value < 0 ∧ base.value = 10) ∧
      if value < 0 ∧ base.value = 10 then
        ∃ magnitude : UInt32, (magnitude.toNat : Int) = - value.toInt ∧
          text = '-'.toUInt8 :: unsigned magnitude 10
      else text = unsigned value.toUInt32 base.value) ∧
    ∀ text, Canonical base text → worth base text < 2 ^ 32 →
      unsigned (readUnsigned text base.value) base.value = text ∧
      ∀ behind, unsigned (readUnsigned (text ++ 0 :: behind) base.value) base.value = text := by
  refine ⟨fun value => ?_, fun value => ?_, fun text htext hword => ⟨?_, fun behind => ?_⟩⟩
  · have hwritten := writeUnsigned_eq value base.value
    rw [unsigned_value] at hwritten
    simp only [unsigned_value]
    refine ⟨hwritten, List.length_pos_iff.mpr (digits_ne_nil base _),
      length_digits_of_word base value.toNat_lt, canonical_digits base _, worth_digits base _,
      ?_, fun hvalue => ?_⟩
    · rintro rfl
      exact digits_zero base
    · have hne : value.toNat ≠ 0 := fun hzero => hvalue (UInt32.toNat_inj.mp hzero)
      exact ⟨head?_digits_ne_zero base hne, pow_le_and_lt_pow base hne⟩
  · intro text
    by_cases hminus : value < 0 ∧ base.value = 10
    · have hsigned := signed_of_minus hminus
      have hhead : text.head? = some '-'.toUInt8 := by
        obtain ⟨magnitude, -, htext⟩ := hsigned
        exact congrArg List.head? htext
      rw [if_pos hminus]
      exact ⟨writeSigned_eq value base.value, iff_of_true hhead hminus, hsigned⟩
    · have hsigned : text = unsigned value.toUInt32 base.value := signed_of_not_minus hminus
      have hhead : text.head? ≠ some '-'.toUInt8 := by
        rw [hsigned, unsigned_value]
        exact head?_digits_ne_minus base _
      rw [if_neg hminus]
      exact ⟨writeSigned_eq value base.value, iff_of_false hhead hminus, hsigned⟩
  · have hend : StopsDigits base [] := by simp [StopsDigits]
    have hwritten := htext.unsigned_readUnsigned hword hend
    rwa [List.append_nil] at hwritten
  · exact htext.unsigned_readUnsigned hword (stopsDigits_terminator base behind)

/-- The greatest word and the least signed number in decimal. -/
theorem decimal_extremes :
    let text := Bytes.ofText "4294967295"
    Canonical .decimal text ∧ worth .decimal text = 0xFFFFFFFF ∧
    unsigned (readUnsigned (text ++ 0 :: Bytes.ofText "6") 10) 10 = text ∧
    10 ^ ((unsigned 0xFFFFFFFF 10).length - 1) ≤ 0xFFFFFFFF ∧
    ∃ magnitude : UInt32, (magnitude.toNat : Int) = 2147483648 ∧
      signed Int32.minValue 10 = '-'.toUInt8 :: unsigned magnitude 10 := by
  intro text
  have htext : Canonical .decimal text :=
    ⟨by decide +kernel, by decide +kernel, by decide +kernel⟩
  have hworth : worth .decimal text = 0xFFFFFFFF := by decide +kernel
  have hminus : Int32.minValue < 0 ∧ Base.decimal.value = 10 := by decide
  obtain ⟨hunsigned, hsigned, hback⟩ := numerals_are_canonical .decimal
  obtain ⟨-, -, -, -, -, -, hgreatest⟩ := hunsigned 0xFFFFFFFF
  obtain ⟨-, -, hleast⟩ := hsigned Int32.minValue
  rw [if_pos hminus] at hleast
  exact ⟨htext, hworth, (hback text htext (by rw [hworth]; decide)).2 _,
    (hgreatest (by decide)).2.1, hleast⟩

end EarlyBoot.Numeral
