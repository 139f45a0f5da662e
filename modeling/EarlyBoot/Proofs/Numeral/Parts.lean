import EarlyBoot.Proofs.Numeral.Reading
import EarlyBoot.Proofs.Numeral.Scanning

/-!
What a number in a text is. Every text has exactly one way to be taken apart into white space, at
most one sign, digits of a base and what is behind them, if each part is as long as it can be. The
digits stand for a number of any size with the sign in front, and a word holds what is left of it
modulo the size of a word.
-/

namespace EarlyBoot.Numeral

inductive Sign where
  | plus
  | minus
deriving DecidableEq

def Sign.byte : Sign → UInt8
  | plus => '+'.toUInt8
  | minus => '-'.toUInt8

theorem Sign.byte_injective : Function.Injective byte := by
  intro s t h
  cases s <;> cases t <;> first | rfl | exact absurd h (by decide)

/-- The bytes of a sign that may be there or not. -/
def signBytes (sign : Option Sign) : Bytes :=
  (sign.map Sign.byte).toList

/-- No sign stands at the start of a text. -/
def LacksSign (text : Bytes) : Prop :=
  ∀ c ∈ text.head?, ∀ sign : Sign, c ≠ sign.byte

/-- A sign at the start of a text is found in one way only. -/
theorem signBytes_append_inj {s t : Option Sign} {a b : Bytes} (ha : s = none → LacksSign a)
    (hb : t = none → LacksSign b) (h : signBytes s ++ a = signBytes t ++ b) : s = t ∧ a = b := by
  cases s with
  | none =>
      cases t with
      | none => exact ⟨rfl, h⟩
      | some t =>
          obtain rfl : a = t.byte :: b := h
          exact absurd rfl (ha rfl t.byte rfl t)
  | some s =>
      cases t with
      | none =>
          obtain rfl : s.byte :: a = b := h
          exact absurd rfl (hb rfl s.byte rfl s)
      | some t =>
          obtain ⟨hbyte, hrest⟩ := List.cons_eq_cons.mp h
          exact ⟨congrArg some (Sign.byte_injective hbyte), hrest⟩

/-- A sign is split off every text, if one stands there. -/
theorem exists_signBytes (text : Bytes) :
    ∃ sign rest, text = signBytes sign ++ rest ∧ (sign = none → LacksSign rest) := by
  by_cases hlacks : LacksSign text
  · exact ⟨none, text, rfl, fun _ => hlacks⟩
  · simp only [LacksSign, not_forall, not_not] at hlacks
    obtain ⟨c, hc, sign, rfl⟩ := hlacks
    obtain ⟨rest, rfl⟩ := List.head?_eq_some_iff.mp hc
    exact ⟨some sign, rest, rfl, fun hnone => absurd hnone (Option.some_ne_none sign)⟩

/-- Only a minus counts when a sign is split off. -/
theorem splitSign_signBytes {sign : Option Sign} {rest : Bytes}
    (h : sign = none → LacksSign rest) :
    splitSign (signBytes sign ++ rest) = (decide (sign = some .minus), rest) := by
  cases sign with
  | none =>
      cases rest with
      | nil => rfl
      | cons c rest =>
          have hsign (sign : Sign) : c ≠ sign.byte := h rfl c rfl sign
          change (if c = Sign.minus.byte then _ else if c = Sign.plus.byte then _ else _) = _
          rw [if_neg (hsign .minus), if_neg (hsign .plus)]
          rfl
  | some sign => cases sign <;> rfl

/-- Bytes that all are digits have their values. -/
theorem exists_spells {base : Base} {s : Bytes} (h : ∀ c ∈ s, (digitOf? base c).isSome = true) :
    ∃ values, Spells base s values := by
  induction s with
  | nil => exact ⟨[], rfl⟩
  | cons c s ih =>
      obtain ⟨hc, hs⟩ := List.forall_mem_cons.mp h
      obtain ⟨d, hd⟩ := Option.isSome_iff_exists.mp hc
      obtain ⟨values, hvalues⟩ := ih hs
      refine ⟨d :: values, ?_⟩
      rw [Spells, List.map_cons, List.map_cons, hd, hvalues]

/-- The parts of a text that is read as a number. None of the first three could be longer, and the
sign is missing only where no sign stands. -/
@[ext]
structure NumberParts (base : Base) where
  blank : Bytes
  sign : Option Sign
  digits : Bytes
  /-- What the digits stand for, one by one. -/
  values : List Nat
  behind : Bytes
  blank_space : ∀ c ∈ blank, Ascii.isSpace c = true
  blank_ends : ∀ c ∈ (signBytes sign ++ (digits ++ behind)).head?, Ascii.isSpace c = false
  sign_taken : sign = none → LacksSign (digits ++ behind)
  digits_stand : List.Forall₂ Stands digits values
  values_lt : ∀ d ∈ values, d < base.value
  digits_end : ∀ c ∈ behind.head?, ∀ d < base.value, ¬ Stands c d

theorem ofInt_natCast (n : Nat) : UInt32.ofInt n = UInt32.ofNat n := by
  apply UInt32.toNat_inj.mp
  simp only [UInt32.ofInt, UInt32.toNat_ofNat']
  omega

theorem toNat_ofInt (n : Int) : ((UInt32.ofInt n).toNat : Int) = n % 2 ^ 32 := by
  simp only [UInt32.ofInt, UInt32.toNat_ofNat']
  omega

theorem toInt_toInt32_ofInt (n : Int) : (UInt32.ofInt n).toInt32.toInt = n.bmod (2 ^ 32) := by
  have hbits : (UInt32.ofInt n).toInt32.toInt =
      ((UInt32.ofInt n).toNat : Int).bmod (2 ^ 32) := BitVec.toInt_eq_toNat_bmod _
  rw [hbits, toNat_ofInt]
  exact Int.emod_bmod n (2 ^ 32)

namespace NumberParts

section

variable {base : Base} (parts : NumberParts base)

def text : Bytes :=
  parts.blank ++ (signBytes parts.sign ++ (parts.digits ++ parts.behind))

/-- The number that the digits stand for, the first one worth most. -/
def magnitude : Nat :=
  Nat.ofDigits base.value parts.values.reverse

/-- The number with its sign. -/
def value : Int :=
  if parts.sign = some .minus then - (parts.magnitude : Int) else parts.magnitude

theorem spells : Spells base parts.digits parts.values :=
  spells_iff.mpr ⟨parts.digits_stand, parts.values_lt⟩

theorem stopsDigits : StopsDigits base parts.behind :=
  fun c hc => digitOf?_eq_none_iff.mpr (parts.digits_end c hc)

/-- No digits stand for zero, with any sign. -/
theorem value_of_nil (h : parts.digits = []) : parts.value = 0 := by
  have hvalues : parts.values = [] := by
    have hstand := parts.digits_stand
    rw [h] at hstand
    exact List.forall₂_nil_left_iff.mp hstand
  simp [value, magnitude, hvalues]

theorem span_blank : parts.text.takeWhile Ascii.isSpace = parts.blank ∧
    parts.text.dropWhile Ascii.isSpace =
      signBytes parts.sign ++ (parts.digits ++ parts.behind) :=
  Bytes.span_append parts.blank_space parts.blank_ends

theorem span_digits :
    (parts.digits ++ parts.behind).takeWhile (digitOf? base · |>.isSome) = parts.digits ∧
      (parts.digits ++ parts.behind).dropWhile (digitOf? base · |>.isSome) = parts.behind :=
  Bytes.span_append parts.spells.isSome_eq_true parts.stopsDigits.isSome_eq_false

end

/-- A text has its parts in one way only. -/
theorem eq_of_text {base : Base} {a b : NumberParts base} (h : a.text = b.text) : a = b := by
  have hblank : a.blank = b.blank := by rw [← a.span_blank.1, h, b.span_blank.1]
  have hstart := a.span_blank.2
  rw [h, b.span_blank.2] at hstart
  obtain ⟨hsign, hrest⟩ := signBytes_append_inj a.sign_taken b.sign_taken hstart.symm
  have hdigits : a.digits = b.digits := by rw [← a.span_digits.1, hrest, b.span_digits.1]
  have hbehind : a.behind = b.behind := by rw [← a.span_digits.2, hrest, b.span_digits.2]
  have hspells : a.values.map some = b.values.map some := by
    rw [← a.spells, ← b.spells, hdigits]
  have hvalues : a.values = b.values :=
    List.map_injective_iff.mpr (Option.some_injective Nat) hspells
  exact NumberParts.ext hblank hsign hdigits hvalues hbehind

/-- Every text has its parts. -/
theorem exists_text (base : Base) (text : Bytes) :
    ∃ parts : NumberParts base, parts.text = text := by
  obtain ⟨sign, rest, hstart, hsign⟩ := exists_signBytes (text.dropWhile Ascii.isSpace)
  have hsplit : rest.takeWhile (digitOf? base · |>.isSome) ++
      rest.dropWhile (digitOf? base · |>.isSome) = rest := List.takeWhile_append_dropWhile
  have hdigits : ∀ c ∈ rest.takeWhile (digitOf? base · |>.isSome),
      (digitOf? base c).isSome = true := fun _ hc => List.mem_takeWhile_imp (l := rest) hc
  obtain ⟨values, hvalues⟩ := exists_spells hdigits
  obtain ⟨hstand, hlt⟩ := spells_iff.mp hvalues
  have hblank : ∀ c ∈ (text.dropWhile Ascii.isSpace).head?, Ascii.isSpace c = false :=
    Bytes.forall_head?_dropWhile Ascii.isSpace text
  have hend : ∀ c ∈ (rest.dropWhile (digitOf? base · |>.isSome)).head?,
      ∀ d < base.value, ¬ Stands c d := by
    intro c hc
    have hnone := Bytes.forall_head?_dropWhile (digitOf? base · |>.isSome) rest c hc
    exact digitOf?_eq_none_iff.mp (by simpa using hnone)
  refine ⟨⟨text.takeWhile Ascii.isSpace, sign, rest.takeWhile (digitOf? base · |>.isSome), values,
    rest.dropWhile (digitOf? base · |>.isSome), fun c hc => List.mem_takeWhile_imp hc,
    ?_, ?_, hstand, hlt, hend⟩, ?_⟩
  · rwa [hsplit, ← hstart]
  · rwa [hsplit]
  · simp only [NumberParts.text]
    rw [hsplit, ← hstart, List.takeWhile_append_dropWhile]

section

variable {base : Base} (parts : NumberParts base)

/-- Reading finds the parts. -/
theorem read_eq {s : Bytes} (h : parts.text = Terminated.content s) :
    read s base.value =
      ⟨decide (parts.sign = some .minus), UInt32.ofNat parts.magnitude⟩ := by
  simp only [read, ofNat?_value, ← h, parts.span_blank.2, splitSign_signBytes parts.sign_taken]
  rw [magnitude_append parts.spells parts.stopsDigits, valueOf_eq_ofDigits]
  rfl

/-- A word holds the value modulo its size. -/
theorem readUnsigned_eq {s : Bytes} (h : parts.text = Terminated.content s) :
    readUnsigned s base.value = UInt32.ofInt parts.value := by
  have hmagnitude : UInt32.ofInt parts.magnitude = UInt32.ofNat parts.magnitude :=
    ofInt_natCast parts.magnitude
  rw [readUnsigned, parts.read_eq h, Reading.toUnsigned, value]
  simp only [decide_eq_true_eq]
  split
  · rw [UInt32.ofInt_neg, hmagnitude]
  · rw [hmagnitude]

end

end NumberParts

theorem toSigned_eq (r : Reading) : r.toSigned = r.toUnsigned.toInt32 := by
  rw [Reading.toSigned, Reading.toUnsigned]
  split
  · rw [UInt32.toInt32_neg]
  · rfl

/-- No base has fewer than two digits or more than there are characters for. -/
theorem ofNat?_eq_none {n : Nat} (h : n < 2 ∨ 36 < n) : Base.ofNat? n = none :=
  dif_neg fun hbase => by omega

/-- Reading a number gives its value modulo the size of a word, whatever the text is and however
many digits there are. The text has one way to be taken apart; the value is zero where it has no
digits, and where the base is none. As a signed number it is what the same bits stand for. In a
buffer whose length is a word, no step of the reading fails a check. -/
theorem read_value_modulo_word (s : Bytes) :
    (∀ base : Base, ∃ parts : NumberParts base,
      parts.text = Terminated.content s ∧
      (∀ other : NumberParts base, other.text = Terminated.content s → other = parts) ∧
      ((readUnsigned s base.value).toNat : Int) = parts.value % 2 ^ 32 ∧
      (readSigned s base.value).toInt = parts.value.bmod (2 ^ 32) ∧
      (parts.digits = [] → readUnsigned s base.value = 0)) ∧
    (∀ n, n < 2 ∨ 36 < n → readUnsigned s n = 0 ∧ readSigned s n = 0) ∧
    (∀ n, (readSigned s n).toBitVec = (readUnsigned s n).toBitVec) ∧
    (s.length < 2 ^ Word.bits → ∀ n, readChecked s n = .ok (read s n)) := by
  refine ⟨fun base => ?_, fun n hn => ?_, fun n => ?_, fun hroom n => readChecked_eq hroom n⟩
  · obtain ⟨parts, hparts⟩ := NumberParts.exists_text base (Terminated.content s)
    have hunsigned := parts.readUnsigned_eq hparts
    refine ⟨parts, hparts, fun other hother => NumberParts.eq_of_text (hother.trans hparts.symm),
      ?_, ?_, fun hdigits => ?_⟩
    · rw [hunsigned, toNat_ofInt]
    · rw [readSigned, toSigned_eq, ← readUnsigned, hunsigned, toInt_toInt32_ofInt]
    · rw [hunsigned, parts.value_of_nil hdigits]
      rfl
  · simp only [readUnsigned, readSigned, read, ofNat?_eq_none hn]
    exact ⟨rfl, rfl⟩
  · rw [readSigned, toSigned_eq]
    exact UInt32.toBitVec_toInt32 _

/-- A negative decimal that no word holds, with a unit behind it. -/
def sampleParts : NumberParts .decimal where
  blank := Bytes.ofText "\t "
  sign := some .minus
  digits := Bytes.ofText "4294967297"
  values := [4, 2, 9, 4, 9, 6, 7, 2, 9, 7]
  behind := Bytes.ofText "px"
  blank_space := by decide +kernel
  blank_ends := by decide +kernel
  sign_taken := fun hnone => absurd hnone (Option.some_ne_none _)
  digits_stand := by decide +kernel
  values_lt := by decide
  digits_end := by decide +kernel

/-- The sample, with a terminator and a digit behind it. -/
theorem read_of_sampleParts :
    let s := Bytes.ofText "\t -4294967297px" ++ 0 :: Bytes.ofText "8"
    s.length < 2 ^ Word.bits ∧ sampleParts.text = Terminated.content s ∧
    ((readUnsigned s 10).toNat : Int) = 4294967295 ∧ (readSigned s 10).toInt = -1 ∧
    readUnsigned s 37 = 0 ∧ readChecked s 10 = .ok (read s 10) := by
  intro s
  have hroom : s.length < 2 ^ Word.bits := by decide +kernel
  have htext : sampleParts.text = Terminated.content s := by decide +kernel
  obtain ⟨hbases, hother, -, hchecked⟩ := read_value_modulo_word s
  obtain ⟨parts, -, honly, hunsigned, hsigned, -⟩ := hbases .decimal
  obtain rfl : sampleParts = parts := honly sampleParts htext
  have hvalue : sampleParts.value = -4294967297 := by decide
  rw [hvalue] at hunsigned hsigned
  exact ⟨hroom, htext, hunsigned, hsigned, (hother 37 (by decide)).1, hchecked hroom 10⟩

end EarlyBoot.Numeral
