import EarlyBoot.Proofs.Numeral.Digits
import EarlyBoot.Quoted

/-!
What can be seen of a quoted text. A class of characters has exactly the numbers in its ranges, and
whatever a text is, all that is left of it in quotes are characters that are seen by themselves.
-/

namespace EarlyBoot

namespace Unicode

theorem le_of_ascending {start : Nat} {ranges : List (Nat × Nat)}
    (h : ascending start ranges = true) : ∀ range ∈ ranges, start ≤ range.1 := by
  induction ranges generalizing start with
  | nil => exact List.forall_mem_nil _
  | cons range rest ih =>
      simp only [ascending, Bool.and_eq_true_iff, decide_eq_true_iff] at h
      obtain ⟨⟨hstart, hrange⟩, hrest⟩ := h
      refine List.forall_mem_cons.mpr ⟨hstart, fun next hnext => ?_⟩
      have hbehind : range.2 + 1 ≤ next.1 := ih hrest next hnext
      omega

/-- Nothing is lost where the search ends, since all further ranges are still higher. -/
theorem Ranges.search_iff {start : Nat} {ranges : List (Nat × Nat)}
    (h : ascending start ranges = true) (n : Nat) :
    search ranges n = true ↔ ∃ range ∈ ranges, range.1 ≤ n ∧ n ≤ range.2 := by
  induction ranges generalizing start with
  | nil => simp [search]
  | cons range rest ih =>
      simp only [ascending, Bool.and_eq_true_iff, decide_eq_true_iff] at h
      obtain ⟨⟨-, hrange⟩, hrest⟩ := h
      have hbehind := le_of_ascending hrest
      simp only [search, Bool.and_eq_true_iff, Bool.or_eq_true_iff, decide_eq_true_iff, ih hrest,
        List.mem_cons, or_and_right, exists_or, exists_eq_left]
      constructor
      · rintro ⟨hfirst, hlast | hlater⟩
        · exact .inl ⟨hfirst, hlast⟩
        · exact .inr hlater
      · rintro (⟨hfirst, hlast⟩ | ⟨next, hnext, hfirst, hlast⟩)
        · exact ⟨hfirst, .inl hlast⟩
        · have hhigher : range.2 + 1 ≤ next.1 := hbehind next hnext
          exact ⟨by omega, .inr ⟨next, hnext, hfirst, hlast⟩⟩

theorem Ranges.has_iff (r : Ranges) (n : Nat) :
    r.has n = true ↔ ∃ range ∈ r.ranges, range.1 ≤ n ∧ n ≤ range.2 :=
  search_iff r.ordered n

end Unicode

namespace Quoted

theorem isVisible_ofNat : ∀ n < 127, 32 ≤ n → isVisible (Char.ofNat n) = true := by
  decide +kernel

/-- A text that shows plain bytes. -/
theorem isVisible_of_mem_glyphs {bytes : Bytes} (h : ∀ b ∈ bytes, Ascii.isPrintable b = true) :
    ∀ e ∈ (Bytes.glyphs bytes).toList, isVisible e = true := by
  intro e he
  rw [Bytes.glyphs, String.toList_ofList] at he
  obtain ⟨b, hb, rfl⟩ := List.mem_map.mp he
  obtain ⟨hlow, hhigh⟩ := Bool.and_eq_true_iff.mp (h b hb)
  have hle : b.toNat ≤ 126 := decide_eq_true_eq.mp hhigh
  exact isVisible_ofNat b.toNat (Nat.lt_succ_of_le hle) (decide_eq_true_eq.mp hlow)

theorem isVisible_of_mem_escape {c : Char} : ∀ e ∈ escape c, isVisible e = true := by
  unfold escape
  split_ifs with hmark hfeed hreturn htab hzero hvisible
  · obtain rfl | rfl := hmark <;> exact List.all_eq_true.mp (by decide +kernel)
  · exact List.all_eq_true.mp (by decide +kernel)
  · exact List.all_eq_true.mp (by decide +kernel)
  · exact List.all_eq_true.mp (by decide +kernel)
  · exact List.all_eq_true.mp (by decide +kernel)
  · exact List.forall_mem_singleton.mpr hvisible
  · have hopening : ∀ e ∈ ['\\', 'u', '\x7b'], isVisible e = true :=
      List.all_eq_true.mp (by decide +kernel)
    have hdigits : ∀ e ∈ (Bytes.glyphs (Numeral.digits .hexadecimal c.toNat)).toList,
        isVisible e = true :=
      isVisible_of_mem_glyphs fun _ hb => Numeral.isPrintable_of_mem_digits hb
    have hclosing : ∀ e ∈ ['\x7d'], isVisible e = true :=
      List.all_eq_true.mp (by decide +kernel)
    exact List.forall_mem_append.mpr
      ⟨List.forall_mem_append.mpr ⟨hopening, hdigits⟩, hclosing⟩

/-- In quotes each character is seen by itself, whatever the text is. -/
theorem isVisible_of_mem_quote {s : String} : ∀ e ∈ (quote s).toList, isVisible e = true := by
  have hmark : ∀ e ∈ ['"'], isVisible e = true :=
    List.all_eq_true.mp (by decide +kernel)
  have hinside : ∀ e ∈ s.toList.flatMap escape, isVisible e = true := fun e he => by
    obtain ⟨c, -, hc⟩ := List.mem_flatMap.mp he
    exact isVisible_of_mem_escape e hc
  rw [quote, String.toList_ofList]
  exact List.forall_mem_append.mpr ⟨List.forall_mem_append.mpr ⟨hmark, hinside⟩, hmark⟩

example : quote "cafe\u0301" = "\"cafe\\u\x7b301\x7d\"" := by decide +kernel

end Quoted

end EarlyBoot
