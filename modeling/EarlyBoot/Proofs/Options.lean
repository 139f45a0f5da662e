import EarlyBoot.Options

/-!
What the tokens of a command line set. One flag anywhere makes a boot verbose, and the last filter
that is named is the one that counts.
-/

namespace EarlyBoot.Options

theorem verbose_foldl_apply (settings : List Setting) (options : Options) :
    (settings.foldl apply options).verbose = true ↔
      options.verbose = true ∨ .verbose ∈ settings := by
  induction settings generalizing options with
  | nil => simp
  | cons setting rest ih =>
      rw [List.foldl_cons, ih]
      cases setting <;> simp [apply]

/-- Only the flag itself makes a boot verbose. -/
theorem verbose_ofTokens (tokens : List CommandLine.Token) :
    (ofTokens tokens).verbose = true ↔ .flag verboseName ∈ tokens := by
  have hsetting (token : CommandLine.Token) :
      setting? token = some .verbose ↔ token = .flag verboseName := by
    cases token <;> simp [setting?]
  rw [ofTokens, verbose_foldl_apply, List.mem_filterMap]
  simp [hsetting]

/-- The filter that a token names, if it is an option that does so. -/
def filterNamed? : CommandLine.Token → Option LogFilter
  | .flag _ => none
  | .option key value => if key = logLevelName then LogFilter.ofName? value else none

theorem setting?_of_filterNamed? {token : CommandLine.Token} {filter : LogFilter}
    (h : filterNamed? token = some filter) : setting? token = some (.filter filter) := by
  cases token with
  | flag name => cases h
  | option key value =>
      rw [filterNamed?] at h
      rw [setting?]
      by_cases hkey : key = logLevelName
      · rw [if_pos hkey] at h ⊢
        rw [h]
        rfl
      · rw [if_neg hkey] at h
        cases h

theorem setting?_of_filterNamed?_eq_none {token : CommandLine.Token}
    (h : filterNamed? token = none) : setting? token = none ∨ setting? token = some .verbose := by
  cases token with
  | flag name => by_cases hname : name = verboseName <;> simp [setting?, hname]
  | option key value =>
      rw [filterNamed?] at h
      by_cases hkey : key = logLevelName
      · rw [if_pos hkey] at h
        simp [setting?, h]
      · simp [setting?, hkey]

theorem filter_foldl_apply (tokens : List CommandLine.Token) (options : Options) :
    ((tokens.filterMap setting?).foldl apply options).filter =
      (tokens.filterMap filterNamed?).getLast?.getD options.filter := by
  induction tokens generalizing options with
  | nil => rfl
  | cons token rest ih =>
      cases hnamed : filterNamed? token with
      | none =>
          rw [List.filterMap_cons_none hnamed]
          obtain hsetting | hsetting := setting?_of_filterNamed?_eq_none hnamed
          · rw [List.filterMap_cons_none hsetting, ih]
          · rw [List.filterMap_cons_some hsetting, List.foldl_cons, ih]
            rfl
      | some filter =>
          rw [List.filterMap_cons_some hnamed, List.getLast?_cons,
            List.filterMap_cons_some (setting?_of_filterNamed? hnamed), List.foldl_cons, ih]
          rfl

/-- The last of the tokens that name a filter decides, and without one it is the default. -/
theorem filter_ofTokens (tokens : List CommandLine.Token) :
    (ofTokens tokens).filter = (tokens.filterMap filterNamed?).getLast?.getD (.upTo .info) :=
  filter_foldl_apply tokens {}

/-- Whether one of these tokens names a filter. -/
def NamesFilter (tokens : List CommandLine.Token) : Prop :=
  ∃ token ∈ tokens, (filterNamed? token).isSome

instance (tokens : List CommandLine.Token) : Decidable (NamesFilter tokens) :=
  inferInstanceAs (Decidable (∃ token ∈ tokens, (filterNamed? token).isSome))

theorem verbose_ofTokens_append (tokens more : List CommandLine.Token) :
    (ofTokens (tokens ++ more)).verbose =
      ((ofTokens tokens).verbose || (ofTokens more).verbose) := by
  rw [Bool.eq_iff_iff, Bool.or_eq_true, verbose_ofTokens, verbose_ofTokens, verbose_ofTokens,
    List.mem_append]

theorem filter_ofTokens_append (tokens more : List CommandLine.Token) :
    (ofTokens (tokens ++ more)).filter =
      if NamesFilter more then (ofTokens more).filter else (ofTokens tokens).filter := by
  simp only [filter_ofTokens]
  rw [List.filterMap_append, List.getLast?_append]
  cases hlast : (more.filterMap filterNamed?).getLast? with
  | none =>
      have hnone : ¬ NamesFilter more := by
        rintro ⟨token, hmem, hsome⟩
        have hnil := List.getLast?_eq_none_iff.mp hlast
        rw [List.filterMap_eq_nil_iff.mp hnil token hmem] at hsome
        cases hsome
      rw [if_neg hnone, Option.none_or]
  | some filter =>
      have hnames : NamesFilter more := by
        obtain ⟨token, hmem, hnamed⟩ := List.mem_filterMap.mp (List.mem_of_getLast? hlast)
        exact ⟨token, hmem, by rw [hnamed]; rfl⟩
      rw [if_pos hnames, Option.some_or]

end EarlyBoot.Options
