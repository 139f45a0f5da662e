import Mathlib.Algebra.Group.Nat.Defs
import EarlyBoot.Loader.Memory

/-!
Numbers as bytes, the lowest byte first, and bytes at an address. Writing a number to a fixed
count of bytes and reading a number from bytes undo each other.
-/

namespace EarlyBoot

/-- The lowest `count` bytes of a number, the lowest one first. -/
def littleEndianBytes : Nat → Nat → Bytes
  | 0, _ => []
  | count + 1, value => UInt8.ofNat value :: littleEndianBytes count (value / 256)

@[simp] theorem length_littleEndianBytes (count value : Nat) :
    (littleEndianBytes count value).length = count := by
  induction count generalizing value with
  | zero => rfl
  | succ count ih => simp [littleEndianBytes, ih]

theorem littleEndian_littleEndianBytes {count value : Nat} (h : value < 256 ^ count) :
    littleEndian (littleEndianBytes count value) = value := by
  induction count generalizing value with
  | zero =>
      simp only [Nat.pow_zero] at h
      simp only [littleEndianBytes, littleEndian]
      omega
  | succ count ih =>
      have hrest : value / 256 < 256 ^ count := by
        rw [Nat.pow_succ] at h
        exact Nat.div_lt_of_lt_mul (by omega)
      simp only [littleEndianBytes, littleEndian, ih hrest, UInt8.toNat_ofNat']
      omega

theorem littleEndianBytes_littleEndian (bs : Bytes) :
    littleEndianBytes bs.length (littleEndian bs) = bs := by
  induction bs with
  | nil => rfl
  | cons b rest ih =>
      have hb := b.toNat_lt
      have hlow : UInt8.ofNat (b.toNat + 256 * littleEndian rest) = b := by
        apply UInt8.toNat_inj.mp
        rw [UInt8.toNat_ofNat']
        omega
      have hhigh : (b.toNat + 256 * littleEndian rest) / 256 = littleEndian rest := by omega
      simp only [List.length_cons, littleEndianBytes, littleEndian, hlow, hhigh, ih]

theorem littleEndian_lt (bs : Bytes) : littleEndian bs < 256 ^ bs.length := by
  induction bs with
  | nil => simp [littleEndian]
  | cons b rest ih =>
      have hb := b.toNat_lt
      simp only [littleEndian, List.length_cons, Nat.pow_succ]
      omega

theorem littleEndian_take_lt (bs : Bytes) (count : Nat) :
    littleEndian (bs.take count) < 256 ^ count :=
  Nat.lt_of_lt_of_le (littleEndian_lt _)
    (Nat.pow_le_pow_right (by decide) (List.length_take_le count bs))

namespace Memory

@[simp] theorem length_bytes (m : Memory) (address n : Nat) :
    (m.bytes address n).length = n := by
  simp [bytes]

theorem bytes_add (m : Memory) (address k n : Nat) :
    m.bytes address (k + n) = m.bytes address k ++ m.bytes (address + k) n := by
  induction k generalizing address with
  | zero => simp [bytes]
  | succ k ih =>
      rw [Nat.succ_add, bytes_succ, bytes_succ, ih, List.cons_append]
      congr 3
      omega

/-- Memory has these bytes from an address on. -/
def Holds (m : Memory) (address : Nat) (bs : Bytes) : Prop :=
  m.bytes address bs.length = bs

theorem holds_of_byteAt {m : Memory} {address : Nat} {bs : Bytes}
    (h : ∀ i (hi : i < bs.length), m.byteAt (address + i) = bs[i]) : m.Holds address bs := by
  refine List.ext_getElem (m.length_bytes address bs.length) fun i _ hi => ?_
  simp only [Memory.bytes, List.getElem_map, List.getElem_range]
  exact h i hi

theorem holds_append {m : Memory} {address : Nat} {xs ys : Bytes} :
    m.Holds address (xs ++ ys) ↔ m.Holds address xs ∧ m.Holds (address + xs.length) ys := by
  unfold Holds
  rw [List.length_append, bytes_add]
  constructor
  · intro h
    exact List.append_inj h (by simp)
  · rintro ⟨hxs, hys⟩
    rw [hxs, hys]

theorem Holds.slice {m : Memory} {address : Nat} {bs : Bytes} (h : m.Holds address bs)
    (skip count : Nat) (hroom : skip + count ≤ bs.length) :
    m.bytes (address + skip) count = (bs.drop skip).take count := by
  have hsplit : bs = bs.take skip ++ ((bs.drop skip).take count ++ (bs.drop skip).drop count) := by
    rw [List.take_append_drop, List.take_append_drop]
  rw [hsplit, holds_append, holds_append] at h
  have hpart := h.2.1
  have hskip : (bs.take skip).length = skip := by
    rw [List.length_take]
    omega
  have hcount : ((bs.drop skip).take count).length = count := by
    rw [List.length_take, List.length_drop]
    omega
  rwa [Holds, hskip, hcount] at hpart

theorem Holds.toNat_word32 {m : Memory} {address : Nat} {bs : Bytes} (h : m.Holds address bs)
    (hroom : 4 ≤ bs.length) : (m.word32 address).toNat = littleEndian (bs.take 4) := by
  have hslice := h.slice 0 4 (by omega)
  rw [Nat.add_zero, List.drop_zero] at hslice
  have hlt := littleEndian_lt (bs.take 4)
  rw [List.length_take, Nat.min_eq_left hroom] at hlt
  rw [word32, hslice, UInt32.toNat_ofNat']
  exact Nat.mod_eq_of_lt (Nat.lt_of_lt_of_eq hlt (by decide))

end Memory

end EarlyBoot
