import EarlyBoot.Region
import EarlyBoot.Proofs.Terminated

/-!
Comparing strings. Two strings are read together until their next bytes decide, and the answer is
the difference of these bytes. So every comparison follows one order, that of lists of bytes, where
a proper beginning comes first.
-/

namespace EarlyBoot.Terminated

/-- The answer of a comparison at an index, if it ends there. -/
def verdict? (a b : Bytes) (i : Nat) : Option Int :=
  let x := a.getD i 0
  let y := b.getD i 0
  if x ≠ y ∨ x = 0 then some (x.toNat - y.toNat) else none

/-- The difference at the first index where two lists of bytes differ, with zeros behind the end of
each; zero if there is none. -/
def firstDifference (a b : Bytes) : Int :=
  ((List.range (max a.length b.length)).find? fun i => a.getD i 0 ≠ b.getD i 0).elim 0
    fun i => (a.getD i 0).toNat - (b.getD i 0).toNat

/-- The first bytes decide a comparison: they differ, or both strings end. -/
def Decided (a b : Bytes) : Prop :=
  a.headD 0 ≠ b.headD 0 ∨ a.headD 0 = 0

theorem Decided.symm {a b : Bytes} (h : Decided a b) : Decided b a := by
  by_cases hsame : a.headD 0 = b.headD 0
  · exact .inr (hsame ▸ h.resolve_left (not_not_intro hsame))
  · exact .inl (Ne.symm hsame)

/-- Two strings are read together until they are decided. -/
@[elab_as_elim]
theorem read_together {P : Bytes → Bytes → Prop} (decided : ∀ a b, Decided a b → P a b)
    (same : ∀ x a b, x ≠ 0 → P a b → P (x :: a) (x :: b)) (a b : Bytes) : P a b := by
  induction a generalizing b with
  | nil => exact decided [] b (.inr rfl)
  | cons x a ih =>
      by_cases hends : x ≠ b.headD 0 ∨ x = 0
      · exact decided (x :: a) b hends
      · obtain ⟨hsame, hx⟩ : x = b.headD 0 ∧ x ≠ 0 := by simpa using hends
        cases b with
        | nil => exact absurd hsame hx
        | cons y b =>
            obtain rfl : x = y := hsame
            exact same x a b hx (ih b)

theorem compare_of_decided {a b : Bytes} (h : Decided a b) :
    compare a b = ((a.headD 0).toNat : Int) - (b.headD 0).toNat := by
  cases a with
  | nil => simp [compare]
  | cons x a =>
      cases b with
      | nil => simp [compare]
      | cons y b => exact if_pos h

theorem compare_cons_self {x : UInt8} (hx : x ≠ 0) (a b : Bytes) :
    compare (x :: a) (x :: b) = compare a b :=
  if_neg (by simpa using hx)

theorem compare_swap (a b : Bytes) : compare b a = -compare a b := by
  induction a, b using read_together with
  | decided a b h => rw [compare_of_decided h, compare_of_decided h.symm, Int.neg_sub]
  | same x a b hx ih => rw [compare_cons_self hx, compare_cons_self hx, ih]

theorem compare_neg_iff (a b : Bytes) : compare a b < 0 ↔ content a < content b := by
  induction a, b using read_together with
  | decided a b h =>
      rw [compare_of_decided h, content_eq a, content_eq b]
      rw [Decided] at h
      generalize a.headD 0 = x at h
      generalize b.headD 0 = y at h
      have horder : (x.toNat : Int) - y.toNat < 0 ↔ x < y := by
        rw [UInt8.lt_iff_toNat_lt]
        omega
      rw [horder]
      by_cases hx : x = 0
      · by_cases hy : y = 0
        · simp [hx, hy]
        · simp [hx, hy, UInt8.pos_iff_ne_zero]
      · by_cases hy : y = 0
        · simp [hx, hy]
        · simp [hx, hy, List.cons_lt_cons_iff, h.resolve_right hx]
  | same x a b hx ih =>
      rw [compare_cons_self hx, ih, content_cons hx, content_cons hx, List.cons_lt_cons_self]

theorem compare_nonpos_iff (a b : Bytes) : compare a b ≤ 0 ↔ content a ≤ content b := by
  rw [← List.not_lt, ← compare_neg_iff, compare_swap a b]
  omega

theorem compare_eq_zero_iff (a b : Bytes) : compare a b = 0 ↔ content a = content b := by
  have hforth := compare_nonpos_iff a b
  have hback := compare_nonpos_iff b a
  rw [compare_swap a b] at hback
  constructor
  · intro hzero
    exact List.le_antisymm (hforth.mp (by omega)) (hback.mp (by omega))
  · intro hsame
    rw [hsame] at hforth hback
    have hle := hforth.mpr (List.le_refl _)
    have hge := hback.mpr (List.le_refl _)
    omega

theorem compare_trans {a b c : Bytes} (hab : compare a b ≤ 0) (hbc : compare b c ≤ 0) :
    compare a c ≤ 0 := by
  rw [compare_nonpos_iff] at hab hbc ⊢
  exact List.le_trans hab hbc

theorem compare_trans_of_neg {a b c : Bytes} (hab : compare a b < 0) (hbc : compare b c < 0) :
    compare a c < 0 := by
  rw [compare_neg_iff] at hab hbc ⊢
  exact List.lt_trans hab hbc

theorem getD_zero (s : Bytes) : s.getD 0 0 = s.headD 0 := by
  cases s <;> rfl

/-- A comparison that looks at one index after the other ends with its answer, no later than behind
the shorter string. -/
theorem exists_verdict (a b : Bytes) :
    ∃ i ≤ min (length a) (length b),
      (∀ j < i, verdict? a b j = none) ∧ verdict? a b i = some (compare a b) := by
  induction a, b using read_together with
  | decided a b h =>
      refine ⟨0, Nat.zero_le _, fun j hj => absurd hj (Nat.not_lt_zero j), ?_⟩
      rw [compare_of_decided h, verdict?, getD_zero, getD_zero]
      exact if_pos h
  | same x a b hx ih =>
      obtain ⟨i, hi, hbefore, hthere⟩ := ih
      refine ⟨i + 1, ?_, ?_, ?_⟩
      · rw [length_cons hx, length_cons hx]
        omega
      · intro j hj
        cases j with
        | zero => simp [verdict?, hx]
        | succ j => exact hbefore j (Nat.lt_of_succ_lt_succ hj)
      · rw [compare_cons_self hx]
        exact hthere

theorem firstDifference_of_ne {a b : Bytes} (h : a.headD 0 ≠ b.headD 0) :
    firstDifference a b = ((a.headD 0).toNat : Int) - (b.headD 0).toNat := by
  have hroom : max a.length b.length ≠ 0 := by
    intro hnone
    obtain ⟨ha, hb⟩ : a = [] ∧ b = [] := by simpa using hnone
    exact h (by rw [ha, hb])
  obtain ⟨k, hk⟩ := Nat.exists_eq_succ_of_ne_zero hroom
  rw [← getD_zero, ← getD_zero] at h ⊢
  rw [firstDifference, hk, List.range_succ_eq_map,
    List.find?_cons_of_pos (by exact decide_eq_true h)]
  rfl

theorem firstDifference_cons_self (x : UInt8) (a b : Bytes) :
    firstDifference (x :: a) (x :: b) = firstDifference a b := by
  have hlength : max (x :: a).length (x :: b).length = max a.length b.length + 1 := by simp
  rw [firstDifference, hlength, List.range_succ_eq_map, List.find?_cons_of_neg (by simp),
    List.find?_map, Option.elim_map]
  rfl

/-- What stands behind a terminator makes no difference. -/
theorem compare_eq_firstDifference (a b : Bytes) :
    compare a b = firstDifference (content a) (content b) := by
  induction a, b using read_together with
  | decided a b h =>
      rw [compare_of_decided h]
      by_cases hsame : a.headD 0 = b.headD 0
      · have ha : a.headD 0 = 0 := h.resolve_left (not_not_intro hsame)
        have hb : b.headD 0 = 0 := hsame ▸ ha
        rw [content_eq a, content_eq b, if_pos ha, if_pos hb, ha, hb]
        rfl
      · rw [← headD_content a, ← headD_content b] at hsame ⊢
        exact (firstDifference_of_ne hsame).symm
  | same x a b hx ih =>
      rw [compare_cons_self hx, ih, content_cons hx, content_cons hx, firstDifference_cons_self]

theorem compareBounded_of_decided {a b : Bytes} (h : Decided a b) (n : Nat) :
    compareBounded a b (n + 1) = ((a.headD 0).toNat : Int) - (b.headD 0).toNat :=
  if_pos h

theorem compareBounded_cons_self {x : UInt8} (hx : x ≠ 0) (a b : Bytes) (n : Nat) :
    compareBounded (x :: a) (x :: b) (n + 1) = compareBounded a b n :=
  if_neg (by simpa using hx)

/-- A bound cuts both strings off. -/
theorem compareBounded_eq_take (a b : Bytes) (n : Nat) :
    compareBounded a b n = compare (a.take n) (b.take n) := by
  induction a, b using read_together generalizing n with
  | decided a b h =>
      cases n with
      | zero => rfl
      | succ n =>
          have hhead (s : Bytes) : (s.take (n + 1)).headD 0 = s.headD 0 := by cases s <;> rfl
          have htake : Decided (a.take (n + 1)) (b.take (n + 1)) := by
            rwa [Decided, hhead, hhead]
          rw [compareBounded_of_decided h, compare_of_decided htake, hhead, hhead]
  | same x a b hx ih =>
      cases n with
      | zero => rfl
      | succ n =>
          rw [compareBounded_cons_self hx, ih, List.take_succ_cons, List.take_succ_cons,
            compare_cons_self hx]

theorem compareBounded_of_lt {a b : Bytes} {n : Nat} (h : min (length a) (length b) < n) :
    compareBounded a b n = compare a b := by
  induction a, b using read_together generalizing n with
  | decided a b hdecided =>
      cases n with
      | zero => exact absurd h (Nat.not_lt_zero _)
      | succ n => rw [compareBounded_of_decided hdecided, compare_of_decided hdecided]
  | same x a b hx ih =>
      cases n with
      | zero => exact absurd h (Nat.not_lt_zero _)
      | succ n =>
          rw [length_cons hx, length_cons hx] at h
          rw [compareBounded_cons_self hx, compare_cons_self hx, ih (by omega)]

/-- Blocks inside two strings compare as the strings do. -/
theorem compare_region {a b : Bytes} {n : Nat} (ha : n ≤ length a) (hb : n ≤ length b) :
    Region.compare a b n = .ok (compareBounded a b n) := by
  have hroom : n ≤ a.length ∧ n ≤ b.length :=
    ⟨Nat.le_trans ha (length_le a), Nat.le_trans hb (length_le b)⟩
  rw [Region.compare, if_pos hroom]
  clear hroom
  congr 1
  induction a, b using read_together generalizing n with
  | decided a b h =>
      cases n with
      | zero => rfl
      | succ n =>
          -- Neither string ends here, so the first bytes differ.
          have hx := headD_ne_zero (Nat.zero_lt_of_lt ha)
          have hy := headD_ne_zero (Nat.zero_lt_of_lt hb)
          cases a with
          | nil => exact absurd rfl hx
          | cons x a =>
              cases b with
              | nil => exact absurd rfl hy
              | cons y b =>
                  have hne : x ≠ y := h.resolve_right hx
                  rw [compareBounded_of_decided h]
                  simp [hne]
  | same x a b hx ih =>
      cases n with
      | zero => rfl
      | succ n =>
          rw [length_cons hx] at ha hb
          rw [compareBounded_cons_self hx, ← ih (by omega) (by omega)]
          simp

/-- All comparisons follow one order. A comparison ends no later than behind the shorter string,
with the difference of the first bytes in which the strings differ, where zeros stand behind the end
of each. So it is zero for equal strings, negative if the first string comes first as a list of
bytes, and it turns around with its arguments. A bound cuts the strings off, which makes no
difference once it exceeds the shorter one, and blocks inside both strings compare as the strings
do. -/
theorem comparisons_follow_order (a b c : Bytes) (n : Nat) :
    (∃ i ≤ min (length a) (length b),
      (∀ j < i, verdict? a b j = none) ∧ verdict? a b i = some (compare a b)) ∧
    compare a b = firstDifference (content a) (content b) ∧
    (compare a b = 0 ↔ content a = content b) ∧
    (compare a b < 0 ↔ content a < content b) ∧
    compare b a = -compare a b ∧
    (compare a b ≤ 0 → compare b c ≤ 0 → compare a c ≤ 0) ∧
    (compare a b < 0 → compare b c < 0 → compare a c < 0) ∧
    compareBounded a b n = compare (a.take n) (b.take n) ∧
    (min (length a) (length b) < n → compareBounded a b n = compare a b) ∧
    (n ≤ length a → n ≤ length b → Region.compare a b n = .ok (compareBounded a b n)) :=
  ⟨exists_verdict a b, compare_eq_firstDifference a b, compare_eq_zero_iff a b,
    compare_neg_iff a b, compare_swap a b, compare_trans, compare_trans_of_neg,
    compareBounded_eq_take a b n, compareBounded_of_lt, compare_region⟩

/-- Strings of which one begins the next, with and without a terminator, and a byte above those of
plain text. -/
theorem comparisons_of_sampleStrings :
    let a : Bytes := [0x61]
    let b : Bytes := [0x61, 0xFF, 0, 0x7A]
    let c : Bytes := [0x62, 0]
    compare a b = -255 ∧ compare b c = -1 ∧ compare a c < 0 ∧ compare a c ≤ 0 ∧
    compareBounded a b 2 = -255 ∧ Region.compare a b 1 = .ok 0 := by
  intro a b c
  have hab : compare a b = -255 := by decide
  have hbc : compare b c = -1 := by decide
  obtain ⟨-, -, -, -, -, hle, hlt, -, hfull, -⟩ := comparisons_follow_order a b c 2
  obtain ⟨-, -, -, -, -, -, -, -, -, hregion⟩ := comparisons_follow_order a b c 1
  have hac : compare a c < 0 := hlt (by rw [hab]; decide) (by rw [hbc]; decide)
  have hac' : compare a c ≤ 0 := hle (by rw [hab]; decide) (by rw [hbc]; decide)
  have hbounded : compareBounded a b 2 = -255 := (hfull (by decide)).trans hab
  have hblock : Region.compare a b 1 = .ok 0 := hregion (by decide) (by decide)
  exact ⟨hab, hbc, hac, hac', hbounded, hblock⟩

end EarlyBoot.Terminated
