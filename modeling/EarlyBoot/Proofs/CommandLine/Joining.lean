import EarlyBoot.Proofs.CommandLine.Pieces
import EarlyBoot.Proofs.Options

/-!
Two command lines in a row with white space between them. If the first one closes its quotes, its
tokens are read as if it stood alone, and then those of the second one: neither a bare key, nor a
key without its value at the end of the first line takes anything from the second one.
-/

namespace EarlyBoot.CommandLine

open Bytes (StopsAt stopsAt_cons)

/-- What is left of a line at each place where its reader looks for a symbol: at the key of each
token and at the value behind an equals sign, and once behind the last token. -/
def symbolPlaces (line : Bytes) : List Bytes :=
  let start := line.dropWhile Ascii.isSpace
  let value? := (symbol? endsKey start).bind fun (_, rest) => afterEquals? rest
  start :: value?.toList ++
    match _h : next? line with
    | none => []
    | some (_, rest) => symbolPlaces rest
termination_by line.length
decreasing_by exact length_lt_of_next? _h

/-- No symbol starts with a quote that is never closed. -/
def ClosesQuotes (line : Bytes) : Prop :=
  ∀ place ∈ symbolPlaces line, place.head? = some quote → quote ∈ place.tail

instance (line : Bytes) : Decidable (ClosesQuotes line) :=
  inferInstanceAs (Decidable (∀ place ∈ symbolPlaces line, _ → _))

theorem symbolPlaces_eq (line : Bytes) :
    symbolPlaces line =
      line.dropWhile Ascii.isSpace ::
        ((symbol? endsKey (line.dropWhile Ascii.isSpace)).bind
          fun (_, rest) => afterEquals? rest).toList ++
        match next? line with
        | none => []
        | some (_, rest) => symbolPlaces rest := by
  rw [symbolPlaces]
  congr 1
  split <;> rename_i hnext <;> rw [hnext]

theorem ClosesQuotes.rest {line rest : Bytes} {token : Token} (h : ClosesQuotes line)
    (hnext : next? line = some (token, rest)) : ClosesQuotes rest := by
  intro place hplace
  refine h place ?_
  rw [symbolPlaces_eq, hnext]
  exact List.mem_append_right _ hplace

theorem ClosesQuotes.start {line : Bytes} (h : ClosesQuotes line)
    (hquote : (line.dropWhile Ascii.isSpace).head? = some quote) :
    quote ∈ (line.dropWhile Ascii.isSpace).tail := by
  refine h _ ?_ hquote
  rw [symbolPlaces_eq]
  exact List.mem_append_left _ List.mem_cons_self

theorem ClosesQuotes.value {line key rest value : Bytes} (h : ClosesQuotes line)
    (hkey : symbol? endsKey (line.dropWhile Ascii.isSpace) = some (key, rest))
    (hvalue : afterEquals? rest = some value) (hquote : value.head? = some quote) :
    quote ∈ value.tail := by
  refine h value ?_ hquote
  rw [symbolPlaces_eq, hkey]
  exact List.mem_append_left _ (List.mem_cons_of_mem _ (by simp [hvalue]))

section Gap

variable {gap : UInt8} (hgap : Ascii.isSpace gap = true) (more : Bytes)

include hgap

/-- A symbol of a closed line stays what it is if white space and more is put behind the line. -/
theorem symbol?_append {stop : UInt8 → Bool} (hquote : stop quote = false)
    (hspace : ∀ c, Ascii.isSpace c = true → stop c = true) {s symbol rest : Bytes}
    (hclosed : s.head? = some quote → quote ∈ s.tail) (h : symbol? stop s = some (symbol, rest)) :
    symbol? stop (s ++ gap :: more) = some (symbol, rest ++ gap :: more) := by
  obtain ⟨text, rfl, htext⟩ := symbolText_of_symbol? h
  rw [List.append_assoc]
  cases htext with
  | bare hhead hsymbol hrest =>
      have hstops : StopsAt stop (rest ++ gap :: more) := by
        cases rest with
        | nil => exact stopsAt_cons (hspace gap hgap) more
        | cons a tail => exact stopsAt_cons (hrest a rfl) (tail ++ gap :: more)
      exact symbol?_bare hhead hsymbol hquote hstops (by simp)
  | quoted hfree => exact symbol?_quoted stop hfree _
  | unclosed hfree =>
      have hmem := hclosed rfl
      rw [List.append_nil, List.tail_cons] at hmem
      exact absurd hmem hfree

theorem afterEquals?_append {rest : Bytes} (h : afterEquals? rest = none) :
    afterEquals? (rest ++ gap :: more) = none := by
  rw [afterEquals?_eq_none] at h ⊢
  cases rest with
  | nil =>
      rintro hhead
      cases hhead
      exact absurd hgap (by decide)
  | cons c tail => exact h

/-- White space in place of a value is an empty value. -/
theorem symbol?_gap : symbol? Ascii.isSpace (gap :: more) = some ([], gap :: more) := by
  have hstops : StopsAt Ascii.isSpace (gap :: more) := stopsAt_cons hgap more
  have hsymbol : ([] : Bytes).head? ≠ some quote := by decide
  exact symbol?_bare hsymbol (List.forall_mem_nil _) (by decide) hstops (List.cons_ne_nil gap more)

/-- A token of a closed line stays what it is, also a key without its value at the end. -/
theorem next?_append {line rest : Bytes} {token : Token} (hclosed : ClosesQuotes line)
    (h : next? line = some (token, rest)) :
    next? (line ++ gap :: more) = some (token, rest ++ gap :: more) := by
  have hends : ∀ c, Ascii.isSpace c = true → endsKey c = true := by
    intro c hc
    rw [endsKey, hc, Bool.or_true]
  rw [next?] at h
  split at h
  · cases h
  · rename_i key afterKey hkey
    have hstart : (line ++ gap :: more).dropWhile Ascii.isSpace =
        line.dropWhile Ascii.isSpace ++ gap :: more := by
      rw [List.dropWhile_append, if_neg]
      intro hempty
      rw [List.isEmpty_iff.mp hempty] at hkey
      cases hkey
    rw [next?, hstart, symbol?_append hgap more (by decide) hends hclosed.start hkey]
    simp only
    split at h
    · rename_i hnone
      cases h
      rw [afterEquals?_append hgap more hnone]
    · rename_i afterSign hsome
      obtain rfl := afterEquals?_eq_some.mp hsome
      have hafter : afterEquals? (equalsSign :: afterSign ++ gap :: more) =
          some (afterSign ++ gap :: more) := afterEquals?_eq_some.mpr rfl
      rw [hafter]
      simp only
      split at h
      · rename_i hvalue
        cases h
        obtain rfl := eq_nil_of_symbol? hvalue
        rw [List.nil_append, symbol?_gap hgap more]
      · rename_i value afterValue hvalue
        cases h
        rw [symbol?_append hgap more (by decide) (fun _ hc => hc) (hclosed.value hkey hsome) hvalue]

theorem tokensOf_append {line : Bytes} (hclosed : ClosesQuotes line) :
    tokensOf (line ++ gap :: more) = tokensOf line ++ tokensOf more := by
  induction hlength : line.length using Nat.strongRecOn generalizing line with
  | ind n ih =>
      cases hnext : next? line with
      | none =>
          have hblank : Blank (line ++ [gap]) :=
            List.forall_mem_append.mpr ⟨blank_of_next? hnext, List.forall_mem_singleton.mpr hgap⟩
          rw [List.append_cons, tokensOf_blank_append hblank, tokensOf_eq line, hnext]
          rfl
      | some found =>
          obtain ⟨token, rest⟩ := found
          have hrest := ih _ (hlength ▸ length_lt_of_next? hnext) (hclosed.rest hnext) rfl
          rw [tokensOf_eq, next?_append hgap more hclosed hnext, tokensOf_eq line, hnext]
          simp only [hrest, List.cons_append]

end Gap

/-- Reading is a homomorphism: white space between two lines keeps their tokens apart. So one of
them makes the whole verbose, and the last filter that is named counts. -/
theorem tokens_of_joined {line : Bytes} {gap : UInt8} (hzero : (0 : UInt8) ∉ line)
    (hclosed : ClosesQuotes line) (hgap : Ascii.isSpace gap = true) (more : Bytes) :
    let joined := line ++ [gap] ++ more
    tokens joined = tokens line ++ tokens more ∧
    (Options.ofCommandLine joined).verbose =
      ((Options.ofCommandLine line).verbose || (Options.ofCommandLine more).verbose) ∧
    (Options.ofCommandLine joined).filter =
      if Options.NamesFilter (tokens more) then (Options.ofCommandLine more).filter
      else (Options.ofCommandLine line).filter := by
  intro joined
  have htokens : tokens joined = tokens line ++ tokens more := by
    have hgapZero : (0 : UInt8) ∉ line ++ [gap] := by
      rw [List.mem_append, not_or]
      exact ⟨hzero, zero_notMem_of_blank (List.forall_mem_singleton.mpr hgap)⟩
    rw [tokens, tokens, Terminated.content_append hgapZero, Terminated.content_eq_self hzero,
      ← List.append_cons, tokensOf_append hgap _ hclosed]
    rfl
  refine ⟨htokens, ?_, ?_⟩
  · rw [Options.ofCommandLine, htokens, Options.verbose_ofTokens_append]
    rfl
  · rw [Options.ofCommandLine, htokens, Options.filter_ofTokens_append]
    rfl

/-- A line that ends in a key without its value, and one that starts with an equals sign, names an
unknown filter and leaves a quote open. -/
theorem tokens_of_joinedSample :
    let line := Bytes.ofText "verbose loglevel=\"warn\"root="
    let more := Bytes.ofText "= loglevel=loud \"q"
    (0 : UInt8) ∉ line ∧ ClosesQuotes line ∧ Ascii.isSpace 10 = true ∧
    tokens (line ++ [10] ++ more) = tokens line ++ tokens more ∧
    (Options.ofCommandLine (line ++ [10] ++ more)).verbose = true ∧
    (Options.ofCommandLine (line ++ [10] ++ more)).filter = .upTo .warn := by
  intro line more
  have hzero : (0 : UInt8) ∉ line := by decide +kernel
  have hclosed : ClosesQuotes line := by decide +kernel
  have hgap : Ascii.isSpace 10 = true := by decide
  obtain ⟨htokens, hverbose, hfilter⟩ := tokens_of_joined hzero hclosed hgap more
  have hnone : ¬ Options.NamesFilter (tokens more) := by decide +kernel
  rw [if_neg hnone] at hfilter
  have hfirst : (Options.ofCommandLine line).verbose = true := by decide +kernel
  have hnamed : (Options.ofCommandLine line).filter = .upTo .warn := by decide +kernel
  exact ⟨hzero, hclosed, hgap, htokens, by rw [hverbose, hfirst]; rfl, hfilter.trans hnamed⟩

end EarlyBoot.CommandLine
