import EarlyBoot.Proofs.Stretch
import EarlyBoot.Proofs.Terminated.Order
import EarlyBoot.Proofs.Word

/-!
Finding a string inside another one. The search answers with the first index at which the bytes of
the needle stand inside the string, and with none only if they stand nowhere.
-/

namespace EarlyBoot.Terminated

open Bytes (cutFrom cutTo cutFrom_of_le cutTo_of_le)

/-- The bytes of `needle` stand in `text` from an index on. -/
def OccursAt (needle text : Bytes) (i : Nat) : Prop :=
  i + needle.length ≤ text.length ∧ (text.drop i).take needle.length = needle

instance (needle text : Bytes) (i : Nat) : Decidable (OccursAt needle text i) :=
  inferInstanceAs (Decidable (_ ∧ _))

/-- Whether the bytes of a needle stand at a start, cut out of the text and compared as a block. -/
def standsAt (needle text : Bytes) (start : Nat) : Except Fault Bool := do
  return (← Region.compare (← cutFrom text start) needle needle.length) == 0

/-- Try one start after the other, up to the last one that leaves room for the needle. -/
def tryStarts (needle text : Bytes) : Except Fault (Option Nat) :=
  if text.length < needle.length then .ok none
  else do
    let last ← Word.sub text.length needle.length
    (List.range (last + 1)).findM? (standsAt needle text)

/-- The search with every cut, index and difference checked. -/
def findStringChecked (s needle : Bytes) : Except Fault (Option Nat) := do
  tryStarts (← cutTo needle (length needle)) (← cutTo s (length s))

theorem occursAt_zero {needle text : Bytes} : OccursAt needle text 0 ↔ needle <+: text := by
  rw [OccursAt, List.drop_zero, Nat.zero_add]
  constructor
  · rintro ⟨-, htake⟩
    exact List.prefix_iff_eq_take.mpr htake.symm
  · intro hstarts
    exact ⟨hstarts.length_le, (List.prefix_iff_eq_take.mp hstarts).symm⟩

theorem occursAt_succ {needle text : Bytes} {c : UInt8} {i : Nat} :
    OccursAt needle (c :: text) (i + 1) ↔ OccursAt needle text i := by
  rw [OccursAt, OccursAt, List.drop_succ_cons, List.length_cons]
  have hroom : i + 1 + needle.length ≤ text.length + 1 ↔ i + needle.length ≤ text.length := by
    omega
  rw [hroom]

theorem occursAt_nil {needle : Bytes} {i : Nat} : OccursAt needle [] i ↔ i = 0 ∧ needle = [] := by
  rw [OccursAt]
  constructor
  · rintro ⟨hroom, -⟩
    rw [List.length_nil] at hroom
    exact ⟨by omega, List.eq_nil_of_length_eq_zero (by omega)⟩
  · rintro ⟨rfl, rfl⟩
    exact ⟨Nat.le_refl 0, rfl⟩

/-- The search answers with the first occurrence. -/
theorem indexOf?_eq_some_iff {needle text : Bytes} {i : Nat} :
    indexOf? needle text = some i ↔
      OccursAt needle text i ∧ ∀ j < i, ¬ OccursAt needle text j := by
  induction text generalizing i with
  | nil =>
      cases needle with
      | nil =>
          simp only [indexOf?, List.isEmpty_nil, if_true, Option.some_inj, occursAt_nil, and_true]
          constructor
          · rintro rfl
            exact ⟨rfl, fun j hj => absurd hj (Nat.not_lt_zero j)⟩
          · rintro ⟨rfl, -⟩
            rfl
      | cons x needle => simp [indexOf?, occursAt_nil]
  | cons c text ih =>
      rw [indexOf?]
      by_cases hstarts : needle <+: c :: text
      · have hzero : OccursAt needle (c :: text) 0 := occursAt_zero.mpr hstarts
        rw [if_pos (List.isPrefixOf_iff_prefix.mpr hstarts), Option.some_inj]
        constructor
        · rintro rfl
          exact ⟨hzero, fun j hj => absurd hj (Nat.not_lt_zero j)⟩
        · rintro ⟨-, hfirst⟩
          by_contra hne
          exact hfirst 0 (by omega) hzero
      · have hzero : ¬ OccursAt needle (c :: text) 0 := fun h => hstarts (occursAt_zero.mp h)
        rw [if_neg (fun h => hstarts (List.isPrefixOf_iff_prefix.mp h)), Option.map_eq_some_iff]
        cases i with
        | zero => simp [hzero]
        | succ i =>
            simp only [Nat.add_right_cancel_iff, exists_eq_right, ih, occursAt_succ,
              Nat.forall_lt_succ_left, hzero, not_false_eq_true, true_and]

theorem indexOf?_eq_none_iff {needle text : Bytes} :
    indexOf? needle text = none ↔ ¬ needle <:+: text := by
  induction text with
  | nil => cases needle <;> simp [indexOf?]
  | cons c text ih =>
      have hcheck : needle.isPrefixOf (c :: text) = true ↔ needle <+: c :: text :=
        List.isPrefixOf_iff_prefix
      rw [indexOf?, List.infix_cons_iff]
      by_cases hstarts : needle <+: c :: text
      · rw [if_pos (hcheck.mpr hstarts)]
        simp [hstarts]
      · rw [if_neg (mt hcheck.mp hstarts)]
        simp [ih, hstarts]

/-- What a search with a fallible test finds if no test in question fails. -/
theorem findM?_of_ok {l : List Nat} {test : Nat → Except Fault Bool} {p : Nat → Bool}
    (h : ∀ i ∈ l, test i = .ok (p i)) : l.findM? test = .ok (l.find? p) := by
  induction l with
  | nil => rfl
  | cons i l ih =>
      obtain ⟨hi, hl⟩ := List.forall_mem_cons.mp h
      rw [List.findM?, hi, List.find?_cons]
      simp only [bind, Except.bind]
      cases p i with
      | true => rfl
      | false => exact ih hl

/-- No index is out of range where the needle has room behind the start. -/
theorem standsAt_eq {needle text : Bytes} (hneedle : (0 : UInt8) ∉ needle)
    (htext : (0 : UInt8) ∉ text) {start : Nat} (hroom : start + needle.length ≤ text.length) :
    standsAt needle text start = .ok (decide (OccursAt needle text start)) := by
  have hdrop : (0 : UInt8) ∉ text.drop start := fun hmem => htext (List.mem_of_mem_drop hmem)
  have htake : (0 : UInt8) ∉ (text.drop start).take needle.length := fun hmem =>
    hdrop (List.mem_of_mem_take hmem)
  have hbehind : needle.length ≤ length (text.drop start) := by
    rw [length, content_eq_self hdrop, List.length_drop]
    omega
  have hwhole : needle.length ≤ length needle := by rw [length, content_eq_self hneedle]
  have hsame : compare ((text.drop start).take needle.length) needle = 0 ↔
      OccursAt needle text start := by
    rw [compare_eq_zero_iff, content_eq_self htake, content_eq_self hneedle, OccursAt]
    exact (and_iff_right hroom).symm
  rw [standsAt, cutFrom_of_le (by omega)]
  simp only [bind, Except.bind]
  rw [compare_region hbehind hwhole, compareBounded_eq_take, List.take_length]
  simp only [beq_eq_decide, hsame]
  rfl

theorem tryStarts_eq {needle text : Bytes} (hneedle : (0 : UInt8) ∉ needle)
    (htext : (0 : UInt8) ∉ text) : tryStarts needle text = .ok (indexOf? needle text) := by
  rw [tryStarts]
  split
  · rename_i hlong
    have hnone : indexOf? needle text = none := by
      rw [indexOf?_eq_none_iff]
      intro hinfix
      exact absurd hinfix.length_le (Nat.not_le.mpr hlong)
    rw [hnone]
  · rename_i hshort
    have htest : ∀ start ∈ List.range (text.length - needle.length + 1),
        standsAt needle text start = .ok (decide (OccursAt needle text start)) := by
      intro start hstart
      have hlast := List.mem_range.mp hstart
      exact standsAt_eq hneedle htext (by omega)
    have hfind : (List.range (text.length - needle.length + 1)).find?
        (fun start => decide (OccursAt needle text start)) = indexOf? needle text := by
      ext i
      have hrange : OccursAt needle text i → i < text.length - needle.length + 1 := by
        intro hoccurs
        have := hoccurs.1
        omega
      rw [List.find?_range_eq_some, indexOf?_eq_some_iff]
      simp only [List.mem_range, decide_eq_true_eq, Bool.not_eq_true', decide_eq_false_iff_not]
      constructor
      · rintro ⟨hoccurs, -, hfirst⟩
        exact ⟨hoccurs, hfirst⟩
      · rintro ⟨hoccurs, hfirst⟩
        exact ⟨hoccurs, hrange hoccurs, hfirst⟩
    rw [Word.sub_of_le (Nat.not_lt.mp hshort)]
    exact (findM?_of_ok htest).trans (congrArg Except.ok hfind)

theorem findStringChecked_eq (s needle : Bytes) :
    findStringChecked s needle = .ok (findString? s needle) := by
  rw [findStringChecked, cutTo_of_le (length_le s), cutTo_of_le (length_le needle), take_length,
    take_length]
  exact tryStarts_eq (zero_notMem_content needle) (zero_notMem_content s)

/-- The search for a string is exact. No index is out of range. The answer is the first index at
which the needle's string stands within the other one, and there is none only if it stands nowhere,
so nothing is found behind a terminator; an empty needle is found at once. -/
theorem findString?_exact (s needle : Bytes) :
    findStringChecked s needle = .ok (findString? s needle) ∧
    (∀ i, findString? s needle = some i ↔
      OccursAt (content needle) (content s) i ∧
        ∀ j < i, ¬ OccursAt (content needle) (content s) j) ∧
    (findString? s needle = none ↔ ¬ content needle <:+: content s) ∧
    (∀ i ∈ findString? s needle, i + length needle ≤ length s) ∧
    (content needle = [] → findString? s needle = some 0) := by
  have hsome : ∀ i, findString? s needle = some i ↔
      OccursAt (content needle) (content s) i ∧
        ∀ j < i, ¬ OccursAt (content needle) (content s) j := fun _ => indexOf?_eq_some_iff
  refine ⟨findStringChecked_eq s needle, hsome, indexOf?_eq_none_iff, ?_, ?_⟩
  · intro i hi
    exact ((hsome i).mp hi).1.1
  · intro hempty
    rw [hsome, hempty, occursAt_zero]
    exact ⟨List.nil_prefix, fun j hj => absurd hj (Nat.not_lt_zero j)⟩

/-- A needle that starts over inside itself, one that stands only behind the terminator, and an
empty one. -/
theorem findString?_of_sampleStrings :
    let s : Bytes := [0x61, 0x61, 0x61, 0x62, 0, 0x62, 0x63]
    findString? s [0x61, 0x61, 0x62, 0, 0x78] = some 1 ∧
    findString? s [0x62, 0x63] = none ∧
    findString? s [0x62, 0x62] = none ∧
    findString? s [0, 0x63] = some 0 ∧ findString? [] [] = some 0 := by
  intro s
  obtain ⟨-, hsome, -, -, -⟩ := findString?_exact s [0x61, 0x61, 0x62, 0, 0x78]
  obtain ⟨-, -, hbehind, -, -⟩ := findString?_exact s [0x62, 0x63]
  obtain ⟨-, -, hover, -, -⟩ := findString?_exact s [0x62, 0x62]
  obtain ⟨-, -, -, -, hempty⟩ := findString?_exact s [0, 0x63]
  obtain ⟨-, -, -, -, hnothing⟩ := findString?_exact [] []
  exact ⟨(hsome 1).mpr (by decide), hbehind.mpr (by decide), hover.mpr (by decide),
    hempty (by decide), hnothing (by decide)⟩

end EarlyBoot.Terminated
