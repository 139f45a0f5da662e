import Mathlib.Order.Bounds.Basic
import EarlyBoot.Fault.Message
import EarlyBoot.Proofs.Word

/-!
Rounding up as the choice of a least multiple. A multiple of the alignment is not below the rounded
number exactly if it is not below the number itself, and the order of rounded numbers, rounding
again and rounding in two steps all come from that. What does not fit into the word is the only
number that is lost.
-/

namespace EarlyBoot.Word

/-- Round up with its differences checked like its sum. -/
def alignUpChecked (width n alignment : Nat) : Except Fault Nat :=
  if alignment = 0 then .ok n
  else do
    let mask ← sub alignment 1
    if alignment &&& mask ≠ 0 then .error .alignmentNotPowerOfTwo
    else add width n ((← sub alignment (n &&& mask)) &&& mask)

/-- The first multiple of an alignment from `n` on, be it a word or not. -/
def ceiling (n alignment : Nat) : Nat :=
  (n + (alignment - 1)) / alignment * alignment

section

variable {n alignment : Nat}

theorem dvd_ceiling (n alignment : Nat) : alignment ∣ ceiling n alignment :=
  Nat.dvd_mul_left alignment _

theorem ceiling_le_iff (hpos : 0 < alignment) {m : Nat} (hm : alignment ∣ m) :
    ceiling n alignment ≤ m ↔ n ≤ m := by
  obtain ⟨q, rfl⟩ := hm
  have hquotient : (n + (alignment - 1)) / alignment ≤ q ↔ n ≤ alignment * q := by
    rw [← Nat.lt_succ_iff, Nat.div_lt_iff_lt_mul hpos, Nat.succ_mul, Nat.mul_comm q]
    omega
  rw [ceiling, Nat.mul_comm, Nat.mul_le_mul_left_iff hpos]
  exact hquotient

theorem le_ceiling (hpos : 0 < alignment) : n ≤ ceiling n alignment :=
  (ceiling_le_iff hpos (dvd_ceiling n alignment)).mp (Nat.le_refl _)

theorem isLeast_ceiling (hpos : 0 < alignment) :
    IsLeast {m | alignment ∣ m ∧ n ≤ m} (ceiling n alignment) :=
  ⟨⟨dvd_ceiling n alignment, le_ceiling hpos⟩, fun _ hm => (ceiling_le_iff hpos hm.1).mpr hm.2⟩

theorem ceiling_mono (hpos : 0 < alignment) {m : Nat} (h : m ≤ n) :
    ceiling m alignment ≤ ceiling n alignment :=
  (ceiling_le_iff hpos (dvd_ceiling n alignment)).mpr (Nat.le_trans h (le_ceiling hpos))

/-- A coarser rounding does not see a finer one that was made before. -/
theorem ceiling_ceiling (hpos : 0 < alignment) {other : Nat} (hother : 0 < other)
    (hdvd : alignment ∣ other) :
    ceiling (ceiling n alignment) other = ceiling n other := by
  have hfine {m : Nat} (hm : other ∣ m) : ceiling n alignment ≤ m ↔ n ≤ m :=
    ceiling_le_iff hpos (Nat.dvd_trans hdvd hm)
  apply Nat.le_antisymm
  · rw [ceiling_le_iff hother (dvd_ceiling n other), hfine (dvd_ceiling n other)]
    exact le_ceiling hother
  · rw [ceiling_le_iff hother (dvd_ceiling _ other), ← hfine (dvd_ceiling _ other)]
    exact le_ceiling hother

theorem alignUp_of_isPowerOfTwo (width : Nat) (h : alignment.isPowerOfTwo) :
    alignUp width n alignment = fit width (ceiling n alignment) := by
  obtain ⟨k, rfl⟩ := h
  exact alignUp_two_pow width n k

theorem alignUp_of_not_isPowerOfTwo (width : Nat) (hne : alignment ≠ 0)
    (h : ¬ alignment.isPowerOfTwo) :
    alignUp width n alignment = .error .alignmentNotPowerOfTwo := by
  rw [alignUp, if_neg hne]
  exact if_pos fun hmask => h ((Nat.and_sub_one_eq_zero_iff_isPowerOfTwo hne).mp hmask)

/-- For a power of two there is no fault but an overflow. -/
theorem alignUp_eq_alignmentFault_iff {width : Nat} :
    alignUp width n alignment = .error .alignmentNotPowerOfTwo ↔
      alignment ≠ 0 ∧ ¬ alignment.isPowerOfTwo := by
  refine ⟨fun hfault => ⟨?_, ?_⟩, fun h => alignUp_of_not_isPowerOfTwo width h.1 h.2⟩
  · intro hzero
    rw [alignUp, if_pos hzero] at hfault
    cases hfault
  · intro hpower
    rw [alignUp_of_isPowerOfTwo width hpower, fit] at hfault
    split at hfault <;> cases hfault

theorem ceiling_lt_of_ne_overflow {width : Nat} (h : alignment.isPowerOfTwo)
    (hfits : alignUp width n alignment ≠ .error .overflow) :
    ceiling n alignment < 2 ^ width := by
  rw [alignUp_of_isPowerOfTwo width h] at hfits
  exact Nat.lt_of_not_le fun hover => hfits (fit_of_le hover)

/-- Where a rounded number comes from: an alignment of zero has left it alone, or it is the first
multiple of a power of two, and a word. -/
theorem alignUp_eq_ok {width after : Nat} (h : alignUp width n alignment = .ok after) :
    alignment = 0 ∧ after = n ∨
      alignment.isPowerOfTwo ∧ after = ceiling n alignment ∧ ceiling n alignment < 2 ^ width := by
  by_cases hzero : alignment = 0
  · rw [alignUp, if_pos hzero] at h
    exact .inl ⟨hzero, (Except.ok.inj h).symm⟩
  by_cases hpower : alignment.isPowerOfTwo
  · rw [alignUp_of_isPowerOfTwo width hpower] at h
    rcases Nat.lt_or_ge (ceiling n alignment) (2 ^ width) with hword | hover
    · rw [fit_of_lt hword] at h
      exact .inr ⟨hpower, (Except.ok.inj h).symm, hword⟩
    · rw [fit_of_le hover] at h
      cases h
  · rw [alignUp_of_not_isPowerOfTwo width hzero hpower] at h
    cases h

/-- The differences do not leave the word: the mask of the number is below the alignment. -/
theorem alignUpChecked_eq (width n alignment : Nat) :
    alignUpChecked width n alignment = alignUp width n alignment := by
  unfold alignUpChecked alignUp
  by_cases hzero : alignment = 0
  · rw [if_pos hzero, if_pos hzero]
  have hmask : sub alignment 1 = .ok (alignment - 1) := sub_of_le (Nat.pos_of_ne_zero hzero)
  have hpadding : sub alignment (n &&& (alignment - 1)) =
      .ok (alignment - (n &&& (alignment - 1))) :=
    sub_of_le (Nat.le_trans Nat.and_le_right (Nat.sub_le alignment 1))
  rw [if_neg hzero, if_neg hzero, hmask]
  simp only [bind, Except.bind, hpadding]

theorem alignUp_of_le {width after m : Nat} (h : alignUp width n alignment = .ok after)
    (hm : m ≤ n) : ∃ before ≤ after, alignUp width m alignment = .ok before := by
  rcases alignUp_eq_ok h with ⟨hzero, rfl⟩ | ⟨hpower, rfl, hword⟩
  · exact ⟨m, hm, if_pos hzero⟩
  · have hle := ceiling_mono (Nat.pos_of_isPowerOfTwo hpower) hm
    refine ⟨ceiling m alignment, hle, ?_⟩
    rw [alignUp_of_isPowerOfTwo width hpower]
    exact fit_of_lt (Nat.lt_of_le_of_lt hle hword)

/-- A number that was rounded before is found as it is. -/
theorem alignUp_again {width after : Nat} (h : alignUp width n alignment = .ok after) :
    alignUp width after alignment = .ok after := by
  rcases alignUp_eq_ok h with ⟨hzero, rfl⟩ | ⟨hpower, rfl, hword⟩
  · exact if_pos hzero
  · have hpos := Nat.pos_of_isPowerOfTwo hpower
    rw [alignUp_of_isPowerOfTwo width hpower, ceiling_ceiling hpos hpos (Nat.dvd_refl alignment)]
    exact fit_of_lt hword

/-- Rounding in two steps only needs more room if the second step needs it. -/
theorem alignUp_bind_alignUp {width coarser : Nat} (h : alignment.isPowerOfTwo)
    (hcoarser : coarser.isPowerOfTwo) (hdvd : alignment ∣ coarser)
    (hfits : alignUp width n coarser ≠ .error .overflow) :
    (alignUp width n alignment >>= fun after => alignUp width after coarser) =
      alignUp width n coarser := by
  have hpos := Nat.pos_of_isPowerOfTwo h
  have hcoarserPos := Nat.pos_of_isPowerOfTwo hcoarser
  have hword := ceiling_lt_of_ne_overflow hcoarser hfits
  have hfine : ceiling n alignment ≤ ceiling n coarser :=
    (ceiling_le_iff hpos (Nat.dvd_trans hdvd (dvd_ceiling n coarser))).mpr (le_ceiling hcoarserPos)
  have hfirst : alignUp width n alignment = .ok (ceiling n alignment) := by
    rw [alignUp_of_isPowerOfTwo width h]
    exact fit_of_lt (Nat.lt_of_le_of_lt hfine hword)
  rw [hfirst]
  change alignUp width (ceiling n alignment) coarser = alignUp width n coarser
  rw [alignUp_of_isPowerOfTwo width hcoarser, alignUp_of_isPowerOfTwo width hcoarser,
    ceiling_ceiling hpos hcoarserPos hdvd]

end

/-- Rounding up is exact. An alignment of zero leaves a number alone, and any other alignment has
to be a power of two; then the result is the smallest multiple that is not below the number if
that is a word, and otherwise an overflow. No difference on the way leaves the word. Hence a
smaller number is rounded to a number that is not greater, a rounded number stays, and rounding to
a power of two and then to a greater one is rounding to the greater one, unless that overflows. -/
theorem alignUp_gives_least_multiple (width n alignment : Nat) :
    let result := alignUp width n alignment
    let multiples := {m | alignment ∣ m ∧ n ≤ m}
    (alignment = 0 → result = .ok n) ∧
    (result = .error .alignmentNotPowerOfTwo ↔ alignment ≠ 0 ∧ ¬ ∃ k, alignment = 2 ^ k) ∧
    Fault.message .alignmentNotPowerOfTwo = "alignment must be power of two" ∧
    (∀ k, alignment = 2 ^ k → ∃ least, IsLeast multiples least ∧
      result = if least < 2 ^ width then .ok least else .error .overflow) ∧
    alignUpChecked width n alignment = result ∧
    (∀ after, result = .ok after →
      (∀ m ≤ n, ∃ before ≤ after, alignUp width m alignment = .ok before) ∧
      alignUp width after alignment = .ok after) ∧
    (∀ j k, alignment = 2 ^ j → j ≤ k → alignUp width n (2 ^ k) ≠ .error .overflow →
      (result >>= fun after => alignUp width after (2 ^ k)) = alignUp width n (2 ^ k)) := by
  intro result multiples
  refine ⟨fun hzero => if_pos hzero, alignUp_eq_alignmentFault_iff, rfl, fun k hk => ?_,
    alignUpChecked_eq width n alignment,
    fun after hafter => ⟨fun m hm => alignUp_of_le hafter hm, alignUp_again hafter⟩,
    fun j k hj hjk hfits => ?_⟩
  · have hpower : alignment.isPowerOfTwo := ⟨k, hk⟩
    exact ⟨ceiling n alignment, isLeast_ceiling (Nat.pos_of_isPowerOfTwo hpower),
      alignUp_of_isPowerOfTwo width hpower⟩
  · have hdvd : alignment ∣ 2 ^ k := hj ▸ Nat.pow_dvd_pow 2 hjk
    exact alignUp_bind_alignUp ⟨j, hj⟩ ⟨k, rfl⟩ hdvd hfits

/-- Just below the end of the words of 32 bits: a multiple that is still one, the next multiple,
which is not, the greatest power of two, and an alignment that is none. -/
theorem alignUp_below_wordEnd :
    alignUp 32 0xFFFFFFE1 16 = .ok 0xFFFFFFF0 ∧
    (∃ before ≤ 0xFFFFFFF0, alignUp 32 17 16 = .ok before) ∧
    alignUp 32 0xFFFFFFF0 16 = .ok 0xFFFFFFF0 ∧
    (∃ least, IsLeast {m | 16 ∣ m ∧ 0xFFFFFFF1 ≤ m} least ∧
      alignUp 32 0xFFFFFFF1 16 = if least < 2 ^ 32 then .ok least else .error .overflow) ∧
    alignUp 32 0xFFFFFFF1 16 = .error .overflow ∧
    (alignUp 32 17 16 >>= fun after => alignUp 32 after (2 ^ 31)) = .ok (2 ^ 31) ∧
    alignUp 32 0xFFFFFFFF 0 = .ok 0xFFFFFFFF ∧
    alignUp 32 12 6 = .error .alignmentNotPowerOfTwo ∧ ¬ ∃ k, 6 = 2 ^ k := by
  have hrounded : alignUp 32 0xFFFFFFE1 16 = .ok 0xFFFFFFF0 := by decide
  have hcoarse : alignUp 32 17 (2 ^ 31) = .ok (2 ^ 31) := by decide
  obtain ⟨-, -, -, -, -, hlater, -⟩ := alignUp_gives_least_multiple 32 0xFFFFFFE1 16
  obtain ⟨-, -, -, hleast, -, -, -⟩ := alignUp_gives_least_multiple 32 0xFFFFFFF1 16
  obtain ⟨-, -, -, -, -, -, htwice⟩ := alignUp_gives_least_multiple 32 17 16
  obtain ⟨hunaligned, -, -, -, -, -, -⟩ := alignUp_gives_least_multiple 32 0xFFFFFFFF 0
  obtain ⟨-, hodd, -, -, -, -, -⟩ := alignUp_gives_least_multiple 32 12 6
  obtain ⟨hsmaller, hagain⟩ := hlater 0xFFFFFFF0 hrounded
  have htwoSteps := htwice 4 31 rfl (by decide) (by decide)
  have hfault : alignUp 32 12 6 = .error .alignmentNotPowerOfTwo := by decide
  exact ⟨hrounded, hsmaller 17 (by decide), hagain, hleast 4 rfl, by decide,
    htwoSteps.trans hcoarse, hunaligned rfl, hfault, (hodd.mp hfault).2⟩

end EarlyBoot.Word
