import EarlyBoot.Proofs.Console.Ring
import EarlyBoot.Proofs.OneLine

/-!
Texts of any characters on the screen. A console drops bytes, but what is lost are characters:
UTF-8 gives a character below 128 one byte with its number, and any other character only bytes
from 128 on. So no piece of a dropped character is left, and it does not matter where a text is
cut into pieces.
-/

namespace EarlyBoot

/-- The characters of a text below 128, one byte for each of them. -/
def plainCharacters (s : String) : Bytes :=
  (s.toList.filter (·.toNat < 128)).map fun char => UInt8.ofNat char.toNat

namespace Bytes

/-- A character is either a single byte that is kept, or none of its bytes is kept. -/
theorem filter_utf8EncodeChar (char : Char) :
    (String.utf8EncodeChar char).filter (· ≤ 0x7F) =
      if char.toNat < 128 then [UInt8.ofNat char.toNat] else [] := by
  by_cases hplain : char.toNat < 128
  · have hencoded := utf8EncodeChar_ofNat char.toNat hplain
    have hle : UInt8.ofNat char.toNat ≤ 0x7F := by
      rw [UInt8.le_iff_toNat_le, UInt8.toNat_ofNat', Nat.mod_eq_of_lt (by omega)]
      exact Nat.le_of_lt_succ hplain
    rw [Char.ofNat_toNat] at hencoded
    rw [if_pos hplain, hencoded, List.filter_cons, if_pos (decide_eq_true hle), List.filter_nil]
  · rw [if_neg hplain]
    refine List.filter_eq_nil_iff.mpr fun byte hbyte hle => hplain ?_
    have hlt : byte.toNat < 128 := Nat.lt_succ_of_le (decide_eq_true_eq.mp hle)
    rwa [eq_of_mem_utf8EncodeChar hbyte hlt]

theorem ofText_toString (char : Char) : ofText char.toString = String.utf8EncodeChar char := by
  rw [ofText, Char.toString_eq_singleton, String.toList_singleton, List.flatMap_singleton]

/-- To drop the bytes from 128 on is to drop the characters from 128 on. -/
theorem filter_ofText (s : String) : (ofText s).filter (· ≤ 0x7F) = plainCharacters s := by
  rw [ofText, plainCharacters]
  induction s.toList with
  | nil => rfl
  | cons char rest ih =>
      rw [List.flatMap_cons, List.filter_append, ih, filter_utf8EncodeChar, List.filter_cons]
      by_cases hplain : char.toNat < 128
      · rw [if_pos hplain, if_pos (decide_eq_true hplain), List.map_cons]
        rfl
      · rw [if_neg hplain, if_neg (mt decide_eq_true_eq.mp hplain)]
        rfl

end Bytes

namespace Console

/-- Formatted text drops characters that are not below 128, as a whole, and nothing else. What it
leaves behind is what the other characters leave, also where the text comes in pieces or character
by character. -/
theorem writeText_shows_plain_characters (c : Console) (s : String) :
    c.writeText s = c.write (plainCharacters s) ∧
    (∀ pieces : List String, String.join pieces = s →
      c.play (pieces.map .writeText) = c.writeText s) ∧
    c.play (s.toList.map .writeChar) = c.writeText s ∧
    (c.WellPlaced → ∃ after, c.writeText s = .ok after ∧ after.WellPlaced) := by
  refine ⟨by rw [writeText, Bytes.filter_ofText], ?_, ?_, fun h => write_wellPlaced h _⟩
  · rintro pieces rfl
    rw [play_of_writes (List.forall_mem_map.mpr fun _ _ => rfl), writeText, Bytes.ofText_join,
      List.flatMap_map, List.filter_flatMap]
    rfl
  · rw [play_of_writes (List.forall_mem_map.mpr fun _ _ => rfl), writeText, Bytes.ofText,
      List.flatMap_map, List.filter_flatMap]
    simp only [Operation.printed, Bytes.ofText_toString]

/-- Characters with one to four bytes, and a line feed behind one of three bytes. -/
theorem plain_characters_of_mixed_text :
    let text := "né 日\n😀!"
    let console := new (Grid.filled ⟨0xDEAD⟩)
    plainCharacters text = ['n', ' ', '\n', '!'].map (UInt8.ofNat ·.toNat) ∧
    console.writeText text = console.write (plainCharacters text) ∧
    String.join ["né", " 日", "", "\n😀!"] = text ∧
    console.play (["né", " 日", "", "\n😀!"].map .writeText) = console.writeText text ∧
    ∃ after, console.writeText text = .ok after ∧ after.WellPlaced := by
  intro text console
  obtain ⟨hplain, hpieces, -, hdone⟩ := writeText_shows_plain_characters console text
  have hjoin : String.join ["né", " 日", "", "\n😀!"] = text := by decide +kernel
  exact ⟨by decide +kernel, hplain, hjoin, hpieces _ hjoin, hdone (clear_wellPlaced _)⟩

end Console

end EarlyBoot
