import EarlyBoot.Bytes

/-!
Texts as bytes, and runs of bytes. The bytes of two texts in a row are those of the first and then
those of the second, and a text that shows plain bytes consists of them.
-/

namespace EarlyBoot

theorem Ascii.lt_of_isPrintable {b : UInt8} (h : isPrintable b = true) : b.toNat < 128 := by
  have hle : b.toNat ≤ 126 := decide_eq_true_eq.mp (Bool.and_eq_true_iff.mp h).2
  omega

namespace Bytes

/-- What holds for all numbers below 256 holds for all bytes. -/
@[elab_as_elim]
theorem forall_byte {P : UInt8 → Prop} (h : ∀ n < 256, P (UInt8.ofNat n)) (c : UInt8) : P c := by
  have hc := h c.toNat c.toNat_lt
  rwa [UInt8.ofNat_toNat] at hc

theorem ofText_append (s t : String) : ofText (s ++ t) = ofText s ++ ofText t := by
  rw [ofText, String.toList_append, List.flatMap_append]
  rfl

theorem ofText_join (texts : List String) :
    ofText (String.join texts) = texts.flatMap ofText := by
  induction texts with
  | nil => rfl
  | cons s rest ih => rw [String.join_cons, ofText_append, ih, List.flatMap_cons]

theorem utf8EncodeChar_ofNat :
    ∀ n < 128, String.utf8EncodeChar (Char.ofNat n) = [UInt8.ofNat n] := by
  decide

theorem ofText_glyphs {bytes : Bytes} (h : ∀ b ∈ bytes, b.toNat < 128) :
    ofText (glyphs bytes) = bytes := by
  rw [ofText, glyphs, String.toList_ofList, List.flatMap_map]
  induction bytes with
  | nil => rfl
  | cons b rest ih =>
      obtain ⟨hb, hrest⟩ := List.forall_mem_cons.mp h
      rw [List.flatMap_cons, ih hrest, utf8EncodeChar_ofNat _ hb, UInt8.ofNat_toNat]
      rfl

theorem toByteArray_eq (s : String) : s.toByteArray = ⟨(ofText s).toArray⟩ := by
  have hencoded : s.toByteArray = s.toList.utf8Encode := by
    rw [← String.toByteArray_ofList, String.ofList_toList]
  rw [hencoded, List.utf8Encode]
  ext1
  exact List.data_toByteArray

/-- Bytes are read as the text that has these bytes. -/
theorem text?_eq_some_iff {bytes : Bytes} {s : String} :
    text? bytes = some s ↔ ofText s = bytes := by
  rw [text?, String.fromUTF8?]
  constructor
  · intro h
    split at h
    · cases h
      exact Array.toList_inj.mpr (congrArg ByteArray.data (toByteArray_eq _).symm)
    · cases h
  · rintro rfl
    have hvalid := s.isValidUTF8
    rw [toByteArray_eq] at hvalid
    rw [dif_pos hvalid]
    exact congrArg some (String.toByteArray_inj.mp (toByteArray_eq s).symm)

/-- The screen drops nothing of a text that consists of plain bytes. -/
theorem filter_eq_ofText {s : String} (h : ∀ b ∈ ofText s, b.toNat < 128) :
    (ofText s).filter (· ≤ 0x7F) = ofText s := by
  rw [List.filter_eq_self]
  intro b hb
  have hlt := h b hb
  exact decide_eq_true (Nat.le_of_lt_succ hlt)

/-- A run of bytes that have a property ends where a byte does not have it. -/
theorem span_append {p : UInt8 → Bool} {run rest : Bytes} (hrun : ∀ c ∈ run, p c = true)
    (hrest : ∀ c ∈ rest.head?, p c = false) :
    (run ++ rest).takeWhile p = run ∧ (run ++ rest).dropWhile p = rest := by
  rw [List.takeWhile_append_of_pos hrun, List.dropWhile_append_of_pos hrun]
  cases rest with
  | nil => exact ⟨List.append_nil run, rfl⟩
  | cons c tail =>
      have hc := hrest c rfl
      constructor
      · rw [List.takeWhile_cons, hc]
        exact List.append_nil run
      · rw [List.dropWhile_cons, hc]
        rfl

theorem forall_head?_dropWhile (p : UInt8 → Bool) (text : Bytes) :
    ∀ c ∈ (text.dropWhile p).head?, p c = false := by
  intro c hc
  have hhead := List.head?_dropWhile_not p text
  rwa [Option.mem_def.mp hc] at hhead

end Bytes

end EarlyBoot
