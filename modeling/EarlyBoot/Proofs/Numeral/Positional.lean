import Mathlib.Data.Nat.Digits.Lemmas
import EarlyBoot.Proofs.Bytes
import EarlyBoot.Proofs.Numeral.Digits

/-!
Positional notation as arithmetic has it. The characters of the digits are listed once in the order
of their values, and a byte is a digit if it stands in that list; the value of digits and the
digits of a number are those of the natural numbers.
-/

namespace EarlyBoot.Numeral

/-- The characters of the digits, in the order of their values. -/
def digitCharacters : Bytes :=
  Bytes.ofText "0123456789abcdefghijklmnopqrstuvwxyz"

def upperDigitCharacters : Bytes :=
  Bytes.ofText "0123456789ABCDEFGHIJKLMNOPQRSTUVWXYZ"

/-- The byte is the digit with this value, letters in either case. -/
def Stands (c : UInt8) (d : Nat) : Prop :=
  digitCharacters[d]? = some c ∨ upperDigitCharacters[d]? = some c

instance (c : UInt8) (d : Nat) : Decidable (Stands c d) :=
  inferInstanceAs (Decidable (_ ∨ _))

theorem digitCharacters_eq_map : digitCharacters = (List.range 36).map digitByte := by
  decide +kernel

theorem upperDigitCharacters_eq_map :
    upperDigitCharacters = (List.range 36).map (caseByte true) := by
  decide +kernel

theorem digitCharacters_getElem? {c : UInt8} {d : Nat} :
    digitCharacters[d]? = some c ↔ d < 36 ∧ digitByte d = c := by
  rw [digitCharacters_eq_map, List.getElem?_map, Option.map_eq_some_iff]
  simp [List.getElem?_eq_some_iff]

theorem upperDigitCharacters_getElem? {c : UInt8} {d : Nat} :
    upperDigitCharacters[d]? = some c ↔ d < 36 ∧ Ascii.toUpper (digitByte d) = c := by
  rw [upperDigitCharacters_eq_map, List.getElem?_map, Option.map_eq_some_iff]
  simp [List.getElem?_eq_some_iff, caseByte]

/-- A byte has a value only if one of the two lists has it there. -/
theorem stands_of_digitValue? {c : UInt8} {d : Nat} (h : Ascii.digitValue? c = some d) :
    Stands c d := by
  have hall : ∀ d ∈ Ascii.digitValue? c,
      digitCharacters[d]? = some c ∨ upperDigitCharacters[d]? = some c := by
    refine Bytes.forall_byte ?_ c
    decide +kernel
  exact hall d h

theorem digitValue?_eq_some_iff {c : UInt8} {d : Nat} :
    Ascii.digitValue? c = some d ↔ Stands c d := by
  refine ⟨stands_of_digitValue?, ?_⟩
  rintro (hlower | hupper)
  · obtain ⟨hd, rfl⟩ := digitCharacters_getElem?.mp hlower
    exact digitValue?_digitByte d hd
  · obtain ⟨hd, rfl⟩ := upperDigitCharacters_getElem?.mp hupper
    exact digitValue?_toUpper_digitByte d hd

section

variable {base : Base}

theorem digitOf?_eq_some_iff {c : UInt8} {d : Nat} :
    digitOf? base c = some d ↔ d < base.value ∧ Stands c d := by
  rw [digitOf?, Option.filter_eq_some_iff, digitValue?_eq_some_iff, decide_eq_true_iff, and_comm]

theorem digitOf?_eq_none_iff {c : UInt8} :
    digitOf? base c = none ↔ ∀ d < base.value, ¬ Stands c d := by
  simp only [Option.eq_none_iff_forall_ne_some, ne_eq, digitOf?_eq_some_iff, not_and]

/-- A string spells digits if each of its bytes is the digit in its place. -/
theorem spells_iff {s : Bytes} {ds : List Nat} :
    Spells base s ds ↔ List.Forall₂ Stands s ds ∧ ∀ d ∈ ds, d < base.value := by
  induction s generalizing ds with
  | nil =>
      cases ds with
      | nil => simp [Spells]
      | cons d ds => simp [Spells]
  | cons c s ih =>
      cases ds with
      | nil => simp [Spells]
      | cons d ds =>
          have htail : s.map (digitOf? base) = ds.map some ↔ _ := ih
          simp only [Spells, List.map_cons, List.cons.injEq, digitOf?_eq_some_iff, htail,
            List.forall₂_cons, List.forall_mem_cons]
          tauto

variable (base)

theorem valueOf_eq_ofDigits (ds : List Nat) :
    valueOf base ds = Nat.ofDigits base.value ds.reverse := by
  induction ds using List.reverseRecOn with
  | nil => rfl
  | append_singleton ds d ih =>
      rw [valueOf_append, ih, List.reverse_concat', Nat.ofDigits_cons, Nat.add_comm, Nat.mul_comm]

/-- Every number but zero is written with the digits that arithmetic has for it. -/
theorem lowDigits_eq_digits {n : Nat} (h : n ≠ 0) :
    lowDigits base n = Nat.digits base.value n := by
  fun_induction lowDigits base n with
  | case1 n hlt => rw [Nat.digits_of_lt _ n h hlt]
  | case2 n hle ih =>
      have hquotient : n / base.value ≠ 0 :=
        Nat.ne_of_gt (Nat.div_pos (Nat.le_of_not_lt hle) base.value_pos)
      rw [Nat.digits_def' base.one_lt_value (Nat.pos_of_ne_zero h), ih hquotient]

end

end EarlyBoot.Numeral
