import EarlyBoot.Proofs.CommandLine

/-!
A command line as its reader sees it. Every byte of a line belongs to a symbol or sets symbols
apart: what is read of a line is its symbols in their order, and what is left out is white space,
quotes and equals signs. This holds of every line, also of one that nobody would write.
-/

namespace EarlyBoot.CommandLine

open Bytes (StopsAt stopsAt_nil)

/-- A symbol in the text of a line, with `rest` behind the text: bare, in quotes, or behind a quote
that is never closed. -/
inductive SymbolText (stop : UInt8 → Bool) (symbol : Bytes) : Bytes → Bytes → Prop where
  | bare {rest : Bytes} : symbol.head? ≠ some quote → (∀ c ∈ symbol, stop c = false) →
      StopsAt stop rest → SymbolText stop symbol symbol rest
  | quoted {rest : Bytes} : quote ∉ symbol →
      SymbolText stop symbol (quote :: (symbol ++ [quote])) rest
  | unclosed : quote ∉ symbol → SymbolText stop symbol (quote :: symbol) []

/-- A token in the text of a line, with `rest` behind it. -/
inductive TokenText : Token → Bytes → Bytes → Prop where
  | flag {name text rest : Bytes} : SymbolText endsKey name text rest →
      rest.head? ≠ some equalsSign → TokenText (.flag name) text rest
  | option {key value keyText valueText rest : Bytes} :
      SymbolText endsKey key keyText (equalsSign :: (valueText ++ rest)) →
      SymbolText Ascii.isSpace value valueText rest →
      TokenText (.option key value) (keyText ++ equalsSign :: valueText) rest

/-- A line that is the texts of these tokens, with white space before each of them and at the
end. A token may follow a closing quote at once. -/
inductive LineText : List Token → Bytes → Prop where
  | nil {gap : Bytes} : Blank gap → LineText [] gap
  | cons {token : Token} {tokens : List Token} {gap text rest : Bytes} : Blank gap →
      TokenText token text rest → LineText tokens rest →
      LineText (token :: tokens) (gap ++ (text ++ rest))

/-- White space, quotes and equals signs, which are no part of a symbol. -/
def Separates (gap : Bytes) : Prop :=
  ∀ c ∈ gap, Ascii.isSpace c = true ∨ c = quote ∨ c = equalsSign

/-- A line in which these pieces stand one behind the other, and nothing else but separators. -/
inductive Woven : List Bytes → Bytes → Prop where
  | nil {gap : Bytes} : Separates gap → Woven [] gap
  | cons {piece : Bytes} {pieces : List Bytes} {gap rest : Bytes} : Separates gap →
      Woven pieces rest → Woven (piece :: pieces) (gap ++ (piece ++ rest))

/-- The symbols of a token, the key before the value. -/
def Token.pieces : Token → List Bytes
  | .flag name => [name]
  | .option key value => [key, value]

/-- A text behind a quote: it is closed by the first quote in it, or it has none. -/
theorem quoted_or_unclosed (s : Bytes) :
    quote ∉ s.takeWhile (· ≠ quote) ∧
      (quote :: s = quote :: (s.takeWhile (· ≠ quote) ++ [quote]) ++
          (s.dropWhile (· ≠ quote)).tail ∨
        s.takeWhile (· ≠ quote) = s ∧ (s.dropWhile (· ≠ quote)).tail = []) := by
  have hfree : quote ∉ s.takeWhile (· ≠ quote) := by
    intro hmem
    have hne := List.mem_takeWhile_imp hmem
    simp at hne
  have hsplit : s.takeWhile (· ≠ quote) ++ s.dropWhile (· ≠ quote) = s :=
    List.takeWhile_append_dropWhile
  refine ⟨hfree, ?_⟩
  cases hrest : s.dropWhile (· ≠ quote) with
  | nil =>
      rw [hrest, List.append_nil] at hsplit
      exact .inr ⟨hsplit, rfl⟩
  | cons c tail =>
      have hc : c = quote := by
        have hhead := List.head?_dropWhile_not (fun c : UInt8 => decide (c ≠ quote)) s
        rw [hrest] at hhead
        simpa using hhead
      rw [hrest, hc] at hsplit
      refine .inl ?_
      rw [List.tail_cons, List.cons_append, List.append_assoc, List.singleton_append, hsplit]

theorem symbolText_of_symbol? {stop : UInt8 → Bool} {s symbol rest : Bytes}
    (h : symbol? stop s = some (symbol, rest)) :
    ∃ text, s = text ++ rest ∧ SymbolText stop symbol text rest := by
  cases s with
  | nil => cases h
  | cons c tail =>
      rw [symbol?] at h
      by_cases hc : c = quote
      · rw [if_pos hc] at h
        cases h
        obtain ⟨hfree, hclosed | ⟨hall, hnone⟩⟩ := quoted_or_unclosed tail
        · exact ⟨_, hc ▸ hclosed, .quoted hfree⟩
        · rw [hall, hnone]
          rw [hall] at hfree
          exact ⟨quote :: tail, by simp [hc], .unclosed hfree⟩
      · rw [if_neg hc] at h
        cases h
        refine ⟨_, List.takeWhile_append_dropWhile.symm, .bare ?_ ?_ ?_⟩
        · rw [List.head?_takeWhile]
          simp [Option.filter, hc]
        · intro b hb
          simpa using List.mem_takeWhile_imp hb
        · intro b hb
          have hhead := List.head?_dropWhile_not (! stop ·) (c :: tail)
          rw [hb] at hhead
          simpa using hhead

theorem afterEquals?_eq_some {s rest : Bytes} :
    afterEquals? s = some rest ↔ s = equalsSign :: rest := by
  cases s with
  | nil => simp [afterEquals?]
  | cons c tail => by_cases hc : c = equalsSign <;> simp [afterEquals?, hc]

theorem afterEquals?_eq_none {s : Bytes} :
    afterEquals? s = none ↔ s.head? ≠ some equalsSign := by
  cases s with
  | nil => simp [afterEquals?]
  | cons c tail => by_cases hc : c = equalsSign <;> simp [afterEquals?, hc]

theorem eq_nil_of_symbol? {stop : UInt8 → Bool} {s : Bytes} (h : symbol? stop s = none) :
    s = [] := by
  cases s with
  | nil => rfl
  | cons c tail =>
      rw [symbol?] at h
      split at h <;> cases h

theorem blank_takeWhile (line : Bytes) : Blank (line.takeWhile Ascii.isSpace) :=
  fun _ hc => List.mem_takeWhile_imp hc

theorem tokenText_of_next? {line rest : Bytes} {token : Token}
    (h : next? line = some (token, rest)) :
    ∃ gap text, line = gap ++ (text ++ rest) ∧ Blank gap ∧ TokenText token text rest := by
  have hline : line.takeWhile Ascii.isSpace ++ line.dropWhile Ascii.isSpace = line :=
    List.takeWhile_append_dropWhile
  refine ⟨line.takeWhile Ascii.isSpace, ?_⟩
  suffices htext : ∃ text, line.dropWhile Ascii.isSpace = text ++ rest ∧
      TokenText token text rest by
    obtain ⟨text, hdrop, htoken⟩ := htext
    rw [hdrop] at hline
    exact ⟨text, hline.symm, blank_takeWhile line, htoken⟩
  rw [next?] at h
  split at h
  · cases h
  · rename_i key afterKey hkey
    obtain ⟨keyText, hstart, hkeyText⟩ := symbolText_of_symbol? hkey
    rw [hstart]
    split at h
    · rename_i hsign
      cases h
      exact ⟨keyText, rfl, .flag hkeyText (afterEquals?_eq_none.mp hsign)⟩
    · rename_i afterSign hsign
      obtain rfl := afterEquals?_eq_some.mp hsign
      split at h
      · rename_i hvalue
        obtain rfl := eq_nil_of_symbol? hvalue
        cases h
        have hempty : SymbolText Ascii.isSpace [] [] [] :=
          .bare (by decide) (List.forall_mem_nil _) (stopsAt_nil _)
        exact ⟨keyText ++ [equalsSign], by simp, .option hkeyText hempty⟩
      · rename_i value afterValue hvalue
        cases h
        obtain ⟨valueText, rfl, hvalueText⟩ := symbolText_of_symbol? hvalue
        exact ⟨keyText ++ equalsSign :: valueText, by simp, .option hkeyText hvalueText⟩

theorem blank_of_next? {line : Bytes} (h : next? line = none) : Blank line := by
  have hdrop : line.dropWhile Ascii.isSpace = [] := by
    rw [next?] at h
    split at h
    · rename_i hkey
      exact eq_nil_of_symbol? hkey
    · split at h
      · cases h
      · split at h <;> cases h
  exact List.dropWhile_eq_nil_iff.mp hdrop

/-- Every line is the texts of its tokens. -/
theorem lineText_tokensOf (line : Bytes) : LineText (tokensOf line) line := by
  induction hlength : line.length using Nat.strongRecOn generalizing line with
  | ind n ih =>
      rw [tokensOf_eq]
      cases hnext : next? line with
      | none => exact .nil (blank_of_next? hnext)
      | some found =>
          obtain ⟨token, rest⟩ := found
          have hrest := ih _ (hlength ▸ length_lt_of_next? hnext) rest rfl
          obtain ⟨gap, text, rfl, hgap, htext⟩ := tokenText_of_next? hnext
          exact .cons hgap htext hrest

theorem length_tokensOf_le (line : Bytes) : (tokensOf line).length ≤ line.length := by
  induction hlength : line.length using Nat.strongRecOn generalizing line with
  | ind n ih =>
      rw [tokensOf_eq]
      cases hnext : next? line with
      | none => exact Nat.zero_le _
      | some found =>
          have hless := length_lt_of_next? hnext
          have hrest := ih _ (hlength ▸ hless) found.2 rfl
          rw [List.length_cons]
          omega

theorem Separates.append {gap gap' : Bytes} (h : Separates gap) (h' : Separates gap') :
    Separates (gap ++ gap') :=
  List.forall_mem_append.mpr ⟨h, h'⟩

theorem Blank.separates {gap : Bytes} (h : Blank gap) : Separates gap :=
  fun c hc => .inl (h c hc)

theorem separates_quote : Separates [quote] :=
  List.forall_mem_singleton.mpr (.inr (.inl rfl))

theorem Woven.behind {pieces : List Bytes} {gap line : Bytes} (hgap : Separates gap)
    (h : Woven pieces line) : Woven pieces (gap ++ line) := by
  cases h with
  | nil hend => exact .nil (hgap.append hend)
  | cons hbefore hrest =>
      rw [← List.append_assoc]
      exact .cons (hgap.append hbefore) hrest

/-- A symbol is a piece of its text, and the rest of the text are quotes. -/
theorem SymbolText.woven {stop : UInt8 → Bool} {symbol text rest gap line : Bytes}
    {pieces : List Bytes} (h : SymbolText stop symbol text rest) (hgap : Separates gap)
    (hline : Woven pieces line) : Woven (symbol :: pieces) (gap ++ (text ++ line)) := by
  cases h with
  | bare _ _ _ => exact .cons hgap hline
  | quoted _ =>
      have hbehind : Woven pieces ([quote] ++ line) := hline.behind separates_quote
      have hwoven : Woven (symbol :: pieces) (gap ++ [quote] ++ (symbol ++ ([quote] ++ line))) :=
        .cons (hgap.append separates_quote) hbehind
      simpa using hwoven
  | unclosed _ =>
      have hwoven : Woven (symbol :: pieces) (gap ++ [quote] ++ (symbol ++ line)) :=
        .cons (hgap.append separates_quote) hline
      simpa using hwoven

theorem LineText.woven {tokens : List Token} {line : Bytes} (h : LineText tokens line) :
    Woven (tokens.flatMap Token.pieces) line := by
  induction h with
  | nil hgap => exact .nil hgap.separates
  | cons hgap htoken _ ih =>
      cases htoken with
      | flag hname _ => exact hname.woven hgap.separates ih
      | option hkey hvalue =>
          have hsign : Separates [equalsSign] := List.forall_mem_singleton.mpr (.inr (.inr rfl))
          have hwoven := hkey.woven hgap.separates (hvalue.woven hsign ih)
          simpa [Token.pieces] using hwoven

end EarlyBoot.CommandLine
