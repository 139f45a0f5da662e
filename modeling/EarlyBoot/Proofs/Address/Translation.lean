import EarlyBoot.Address.DirectMapping
import EarlyBoot.Fault.Message
import EarlyBoot.Proofs.Word

/-!
Translating addresses through a direct mapping. A block of physical memory and its image are
intervals of numbers, either of which may run past the last address. An address and its image lie
at one distance from the two bases, and from this distance alone follows how two images compare.
-/

namespace EarlyBoot

namespace Address

variable {space : AddressSpace} {a b : Address space} {n : Nat}

theorem toNat_inj : a.toNat = b.toNat ↔ a = b := by
  cases a
  cases b
  rw [Address.mk.injEq]

theorem add_eq_overflow_iff (a : Address space) (n : Nat) :
    a.add n = .error .overflow ↔ 2 ^ space.bits ≤ a.toNat + n := by
  rw [add, ← Nat.not_lt]
  split
  · rename_i hword
    exact iff_of_false nofun (not_not_intro hword)
  · rename_i hover
    exact iff_of_true rfl hover

theorem add_eq_ok_iff : a.add n = .ok b ↔ b.toNat = a.toNat + n := by
  rw [add]
  split
  · rw [Except.ok.injEq, ← toNat_inj]
    exact eq_comm
  · rename_i hover
    exact iff_of_false nofun fun hsum => hover (hsum ▸ b.isLt)

end Address

namespace DirectMapping

/-- Whether an address is in the block, with its distance from the base checked. -/
def containsChecked (m : DirectMapping) (p : Address .physical) : Except Fault Bool :=
  if m.physicalBase.toNat ≤ p.toNat then do
    return decide ((← Word.sub p.toNat m.physicalBase.toNat) < m.size)
  else .ok false

/-- Translate an address with every distance checked like the sum. -/
def toVirtualChecked (m : DirectMapping) (p : Address .physical) :
    Except Fault (Address .virtual) := do
  if ← m.containsChecked p then
    m.virtualBase.add (← Word.sub p.toNat m.physicalBase.toNat)
  else .error (.unmapped p.toNat)

/-- An address in the block, and the virtual address at the same distance from the other base. -/
structure Maps (m : DirectMapping) (p : Address .physical) (v : Address .virtual) : Prop where
  base_le : m.physicalBase.toNat ≤ p.toNat
  lt_end : p.toNat < m.physicalBase.toNat + m.size
  image : v.toNat = m.virtualBase.toNat + (p.toNat - m.physicalBase.toNat)

variable {m : DirectMapping} {p q : Address .physical} {v w : Address .virtual}

theorem contains_iff : m.contains p = true ↔
    m.physicalBase.toNat ≤ p.toNat ∧ p.toNat < m.physicalBase.toNat + m.size := by
  rw [contains, Bool.and_eq_true, decide_eq_true_eq, decide_eq_true_eq]
  omega

theorem toVirtual_of_not_contains (h : ¬ m.contains p = true) :
    m.toVirtual p = .error (.unmapped p.toNat) :=
  if_neg h

theorem toVirtual_of_contains (h : m.contains p = true) :
    m.toVirtual p = m.virtualBase.add (p.toNat - m.physicalBase.toNat) :=
  if_pos h

theorem toVirtual_eq_ok_iff : m.toVirtual p = .ok v ↔ m.Maps p v := by
  by_cases hcontains : m.contains p = true
  · have hinside := contains_iff.mp hcontains
    rw [toVirtual_of_contains hcontains, Address.add_eq_ok_iff]
    exact ⟨fun himage => ⟨hinside.1, hinside.2, himage⟩, fun hmaps => hmaps.image⟩
  · rw [toVirtual_of_not_contains hcontains]
    exact iff_of_false nofun
      fun hmaps => hcontains (contains_iff.mpr ⟨hmaps.base_le, hmaps.lt_end⟩)

theorem toVirtual_eq_unmapped_iff :
    m.toVirtual p = .error (.unmapped p.toNat) ↔ ¬ m.contains p = true := by
  refine ⟨fun hfault hcontains => ?_, toVirtual_of_not_contains⟩
  rw [toVirtual_of_contains hcontains, Address.add] at hfault
  split at hfault <;> cases hfault

theorem toVirtual_eq_overflow_iff : m.toVirtual p = .error .overflow ↔ m.contains p = true ∧
    2 ^ 64 ≤ m.virtualBase.toNat + (p.toNat - m.physicalBase.toNat) := by
  by_cases hcontains : m.contains p = true
  · rw [toVirtual_of_contains hcontains, and_iff_right hcontains]
    exact m.virtualBase.add_eq_overflow_iff _
  · rw [toVirtual_of_not_contains hcontains]
    exact iff_of_false nofun fun h => hcontains h.1

/-- The fault of an address that is not in the block shows that address. -/
theorem message_unmapped (p : Address .physical) : Fault.message (.unmapped p.toNat) =
    "[DirectMapping::phys_to_virt] physical address " ++ p.text ++ " out of bounds" := by
  let shown := Bytes.glyphs (Numeral.prefixedHex 16 p.toNat)
  have hopening : "[DirectMapping::phys_to_virt] physical address PHYS_" =
      "[DirectMapping::phys_to_virt] physical address " ++ ("PHYS" ++ "_") := by decide
  calc
    Fault.message (.unmapped p.toNat) =
        "[DirectMapping::phys_to_virt] physical address PHYS_" ++ shown ++ " out of bounds" := rfl
    _ = "[DirectMapping::phys_to_virt] physical address " ++ ("PHYS" ++ "_") ++ shown
          ++ " out of bounds" := congrArg (· ++ shown ++ " out of bounds") hopening
    _ = "[DirectMapping::phys_to_virt] physical address " ++ ("PHYS" ++ "_" ++ shown)
          ++ " out of bounds" := congrArg (· ++ " out of bounds") String.append_assoc

/-- No distance is formed for an address below the base. -/
theorem toVirtualChecked_eq (m : DirectMapping) (p : Address .physical) :
    m.toVirtualChecked p = m.toVirtual p := by
  unfold toVirtualChecked containsChecked
  by_cases hbelow : m.physicalBase.toNat ≤ p.toNat
  · have hdistance := Word.sub_of_le hbelow
    have hcontains : m.contains p = decide (p.toNat - m.physicalBase.toNat < m.size) := by
      rw [contains, decide_eq_true hbelow, Bool.true_and]
    rw [if_pos hbelow, hdistance, toVirtual, hcontains]
    rfl
  · have hcontains : ¬ m.contains p = true := fun h => hbelow (contains_iff.mp h).1
    rw [if_neg hbelow, toVirtual_of_not_contains hcontains]
    rfl

namespace Maps

theorem lt_iff (hp : m.Maps p v) (hq : m.Maps q w) : v.toNat < w.toNat ↔ p.toNat < q.toNat := by
  have hpBase := hp.base_le
  have hqBase := hq.base_le
  rw [hp.image, hq.image]
  omega

theorem eq_iff (hp : m.Maps p v) (hq : m.Maps q w) : v = w ↔ p = q := by
  have hpBase := hp.base_le
  have hqBase := hq.base_le
  rw [← Address.toNat_inj, ← Address.toNat_inj, hp.image, hq.image]
  omega

/-- An image that is an address leaves room for the images of all addresses below. -/
theorem exists_of_le (hp : m.Maps p v) (hbase : m.physicalBase.toNat ≤ q.toNat)
    (hle : q.toNat ≤ p.toNat) : ∃ w, m.Maps q w := by
  have hend := hp.lt_end
  have himage := hp.image
  have hroom : m.virtualBase.toNat + (q.toNat - m.physicalBase.toNat) < 2 ^ 64 :=
    Nat.lt_of_le_of_lt (by omega) v.isLt
  exact ⟨⟨_, hroom⟩, hbase, by omega, rfl⟩

theorem add_eq (hp : m.Maps p v) (hq : m.Maps q w) {k : Nat} (hk : p.add k = .ok q) :
    v.add k = .ok w := by
  have hpBase := hp.base_le
  rw [Address.add_eq_ok_iff] at hk ⊢
  rw [hp.image, hq.image, hk]
  omega

end Maps

/-- The virtual addresses that some physical address is translated to. -/
theorem exists_maps_iff : (∃ q, m.Maps q v) ↔
    m.virtualBase.toNat ≤ v.toNat ∧ v.toNat < m.virtualBase.toNat + m.size ∧
      m.physicalBase.toNat + (v.toNat - m.virtualBase.toNat) < 2 ^ 64 := by
  constructor
  · rintro ⟨q, hbase, hend, himage⟩
    have hlt : q.toNat < 2 ^ 64 := q.isLt
    exact ⟨by omega, by omega, by omega⟩
  · rintro ⟨hbase, hend, hroom⟩
    refine ⟨⟨_, hroom⟩, Nat.le_add_right _ _, ?_, ?_⟩
    · exact Nat.add_lt_add_left (by omega) _
    · rw [Nat.add_sub_cancel_left]
      omega

/-- A direct mapping keeps distances. It contains the addresses from its base up to its end, which
are numbers that do not wrap around. The translation of an address is a fault exactly if it is not
in the block, an overflow exactly if it is and its image is no address, and otherwise its image,
and no difference on the way is below zero. So the addresses that are translated have images of
their own in the same order, they are all those in the block that are not above one of them, and
what is added to an address is added to its image. The images are the virtual addresses that lie
at the distance of some physical address from their base. -/
theorem toVirtual_keeps_distances (m : DirectMapping) (p : Address .physical) :
    let base := m.physicalBase.toNat
    let inside := base ≤ p.toNat ∧ p.toNat < base + m.size
    let image := m.virtualBase.toNat + (p.toNat - base)
    (m.contains p = true ↔ inside) ∧
    (m.toVirtual p = .error (.unmapped p.toNat) ↔ ¬ inside) ∧
    Fault.message (.unmapped p.toNat) =
      "[DirectMapping::phys_to_virt] physical address " ++ p.text ++ " out of bounds" ∧
    (m.toVirtual p = .error .overflow ↔ inside ∧ 2 ^ 64 ≤ image) ∧
    (∀ v, m.toVirtual p = .ok v ↔ inside ∧ v.toNat = image) ∧
    m.toVirtualChecked p = m.toVirtual p ∧
    (∀ v, m.toVirtual p = .ok v →
      (∀ q w, m.toVirtual q = .ok w →
        (v = w ↔ p = q) ∧ (v.toNat < w.toNat ↔ p.toNat < q.toNat)) ∧
      (∀ q, m.contains q = true → q.toNat ≤ p.toNat → ∃ w, m.toVirtual q = .ok w) ∧
      (∀ k q w, p.add k = .ok q → m.toVirtual q = .ok w → v.add k = .ok w)) ∧
    (∀ v, (∃ q, m.toVirtual q = .ok v) ↔
      m.virtualBase.toNat ≤ v.toNat ∧ v.toNat < m.virtualBase.toNat + m.size ∧
        base + (v.toNat - m.virtualBase.toNat) < 2 ^ 64) := by
  intro base inside image
  refine ⟨contains_iff, ?_, message_unmapped p, ?_, fun v => ?_, toVirtualChecked_eq m p,
    fun v hv => ?_, fun v => ?_⟩
  · rw [toVirtual_eq_unmapped_iff, contains_iff]
  · rw [toVirtual_eq_overflow_iff, contains_iff]
  · rw [toVirtual_eq_ok_iff]
    exact ⟨fun h => ⟨⟨h.base_le, h.lt_end⟩, h.image⟩, fun h => ⟨h.1.1, h.1.2, h.2⟩⟩
  · simp only [toVirtual_eq_ok_iff] at hv ⊢
    exact ⟨fun q w hw => ⟨hv.eq_iff hw, hv.lt_iff hw⟩,
      fun q hq hle => hv.exists_of_le (contains_iff.mp hq).1 hle,
      fun k q w hk hw => hv.add_eq hw hk⟩
  · simp only [toVirtual_eq_ok_iff]
    exact exists_maps_iff

/-- A block that runs past the last physical address, with an image that runs past the last virtual
address before that. -/
def lastBlock : DirectMapping where
  virtualBase := ⟨2 ^ 64 - 8, by decide⟩
  physicalBase := ⟨2 ^ 64 - 32, by decide⟩
  size := 64

/-- The first address, the last one that has an image, the one behind it and the one below the
block. -/
theorem toVirtual_in_lastBlock :
    let first : Address .physical := ⟨2 ^ 64 - 32, by decide⟩
    let last : Address .physical := ⟨2 ^ 64 - 25, by decide⟩
    let firstImage : Address .virtual := ⟨2 ^ 64 - 8, by decide⟩
    let lastImage : Address .virtual := ⟨2 ^ 64 - 1, by decide⟩
    lastBlock.toVirtual last = .ok lastImage ∧
    (∃ image, lastBlock.toVirtual first = .ok image) ∧
    (firstImage.toNat < lastImage.toNat ↔ first.toNat < last.toNat) ∧
    firstImage.add 7 = .ok lastImage ∧
    lastBlock.toVirtual ⟨2 ^ 64 - 24, by decide⟩ = .error .overflow ∧
    lastBlock.toVirtual ⟨2 ^ 64 - 33, by decide⟩ = .error (.unmapped (2 ^ 64 - 33)) := by
  intro first last firstImage lastImage
  obtain ⟨-, -, -, -, himage, -, hfirst, -⟩ := toVirtual_keeps_distances lastBlock first
  obtain ⟨-, -, -, -, himageOfLast, -, hlast, -⟩ := toVirtual_keeps_distances lastBlock last
  obtain ⟨-, -, -, hbehind, -, -, -, -⟩ :=
    toVirtual_keeps_distances lastBlock ⟨2 ^ 64 - 24, by decide⟩
  obtain ⟨-, hbelow, -, -, -, -, -, -⟩ :=
    toVirtual_keeps_distances lastBlock ⟨2 ^ 64 - 33, by decide⟩
  have htoFirst : lastBlock.toVirtual first = .ok firstImage := (himage _).mpr (by decide)
  have htoLast : lastBlock.toVirtual last = .ok lastImage := (himageOfLast _).mpr (by decide)
  obtain ⟨hcompare, -, hadd⟩ := hfirst firstImage htoFirst
  obtain ⟨-, hsmaller, -⟩ := hlast lastImage htoLast
  exact ⟨htoLast, hsmaller first (by decide) (by decide), (hcompare last lastImage htoLast).2,
    hadd 7 last lastImage (Address.add_eq_ok_iff.mpr rfl) htoLast, hbehind.mpr (by decide),
    hbelow.mpr (by decide)⟩

end DirectMapping

end EarlyBoot
