import EarlyBoot.Address.Basic
import EarlyBoot.Proofs.Bytes
import EarlyBoot.Proofs.Quoted

/-!
Texts that end no line. What a report puts between its own words is a number, an address or a text
in quotes, and none of them holds a line feed or a carriage return. Their bytes hold none either:
UTF-8 uses a number below 128 only for the character with this number.
-/

namespace EarlyBoot

/-- A text without a line feed and without a carriage return. -/
def OneLine (s : String) : Prop :=
  ∀ c ∈ s.toList, c ≠ '\n' ∧ c ≠ '\r'

instance (s : String) : Decidable (OneLine s) :=
  List.decidableBAll (fun c => c ≠ '\n' ∧ c ≠ '\r') s.toList

namespace OneLine

@[simp] theorem append_iff {s t : String} : OneLine (s ++ t) ↔ OneLine s ∧ OneLine t := by
  unfold OneLine
  rw [String.toList_append]
  exact List.forall_mem_append

theorem append {s t : String} (hs : OneLine s) (ht : OneLine t) : OneLine (s ++ t) :=
  append_iff.mpr ⟨hs, ht⟩

theorem intercalate {separator : String} (hseparator : OneLine separator) {parts : List String}
    (h : ∀ s ∈ parts, OneLine s) : OneLine (separator.intercalate parts) := by
  induction parts with
  | nil =>
      rw [String.intercalate_nil]
      decide
  | cons s rest ih =>
      obtain ⟨hs, hrest⟩ := List.forall_mem_cons.mp h
      cases rest with
      | nil => rwa [String.intercalate_singleton]
      | cons t more =>
          rw [String.intercalate_cons_cons]
          exact (hs.append hseparator).append (ih hrest)

/-- The end of a line cannot be seen. -/
theorem of_isVisible {s : String} (h : ∀ c ∈ s.toList, Quoted.isVisible c = true) : OneLine s := by
  have hfeed : Quoted.isVisible '\n' = false := by decide +kernel
  have hreturn : Quoted.isVisible '\r' = false := by decide +kernel
  intro c hc
  constructor
  · rintro rfl
    exact Bool.false_ne_true (hfeed.symm.trans (h _ hc))
  · rintro rfl
    exact Bool.false_ne_true (hreturn.symm.trans (h _ hc))

/-- A text that shows plain bytes. -/
theorem glyphs {bytes : Bytes} (h : ∀ b ∈ bytes, Ascii.isPrintable b = true) :
    OneLine (Bytes.glyphs bytes) :=
  of_isVisible (Quoted.isVisible_of_mem_glyphs h)

/-- A text in quotes stays on its line, whatever it is. -/
@[simp] theorem quote (s : String) : OneLine (Quoted.quote s) :=
  of_isVisible Quoted.isVisible_of_mem_quote

@[simp] theorem decimal (n : Nat) : OneLine (Numeral.decimalText n) :=
  glyphs fun _ hb => Numeral.isPrintable_of_mem_digits hb

@[simp] theorem hex (width n : Nat) : OneLine (Bytes.glyphs (Numeral.prefixedHex width n)) :=
  glyphs fun _ hb => Numeral.isPrintable_of_mem_prefixedHex hb

@[simp] theorem address {space : AddressSpace} (a : Address space) : OneLine a.text := by
  have hlabel : OneLine space.label := by cases space <;> decide
  exact (hlabel.append (by decide)).append (hex _ _)

end OneLine

/-- A byte of the UTF-8 form below 128 is a character by itself. -/
theorem Bytes.eq_of_mem_utf8EncodeChar {c : Char} {b : UInt8} (h : b ∈ String.utf8EncodeChar c)
    (hb : b.toNat < 128) : c.toNat = b.toNat := by
  have hlow (n : Nat) (hn : 128 ≤ n ∧ n < 256) : b ≠ UInt8.ofNat n := by
    rintro rfl
    rw [UInt8.toNat_ofNat', Nat.mod_eq_of_lt hn.2] at hb
    omega
  unfold String.utf8EncodeChar at h
  simp only at h
  split at h
  · rename_i hplain
    rw [List.mem_singleton.mp h, UInt8.toNat_ofNat', Nat.mod_eq_of_lt (by omega)]
    rfl
  -- All bytes of a longer form have their highest bit set.
  · split at h
    · simp only [List.mem_cons, List.not_mem_nil, or_false] at h
      obtain h | h := h <;> exact absurd h (hlow _ (by omega))
    · split at h
      · simp only [List.mem_cons, List.not_mem_nil, or_false] at h
        obtain h | h | h := h <;> exact absurd h (hlow _ (by omega))
      · simp only [List.mem_cons, List.not_mem_nil, or_false] at h
        obtain h | h | h | h := h <;> exact absurd h (hlow _ (by omega))

theorem OneLine.notMem_ofText {s : String} (h : OneLine s) :
    (0x0A : UInt8) ∉ Bytes.ofText s ∧ (0x0D : UInt8) ∉ Bytes.ofText s := by
  have hnotMem (b : UInt8) (e : Char) (hb : b.toNat < 128) (he : e.toNat = b.toNat)
      (hfree : ∀ c ∈ s.toList, c ≠ e) : b ∉ Bytes.ofText s := by
    intro hmem
    obtain ⟨c, hc, hbyte⟩ := List.mem_flatMap.mp hmem
    have hcode := Bytes.eq_of_mem_utf8EncodeChar hbyte hb
    exact hfree c hc (Char.toNat_inj.mp (hcode.trans he.symm))
  exact ⟨hnotMem 0x0A '\n' (by decide) rfl fun c hc => (h c hc).1,
    hnotMem 0x0D '\r' (by decide) rfl fun c hc => (h c hc).2⟩

end EarlyBoot
