import EarlyBoot.Proofs.Boot.Ending
import EarlyBoot.Proofs.Bytes
import EarlyBoot.Proofs.Options

/-!
Reading the options in one pass over the tokens of a command line. Each token either sets an option
or leaves a record, which goes to the log at once. So the options are what the tokens say, whatever
the log lets through at the time, and the records are those of the other tokens, in their order.
-/

namespace EarlyBoot

namespace LogFilter

/-- The word for a filter on a command line. -/
def word : LogFilter → String
  | off => "off"
  | upTo .error => "error"
  | upTo .warn => "warn"
  | upTo .info => "info"
  | upTo .debug => "debug"
  | upTo .trace => "trace"

/-- A name is the word for the filter, in letters of either case. -/
def IsNamed (filter : LogFilter) (name : Bytes) : Prop :=
  name.map Ascii.toLower = Bytes.ofText filter.word

instance (filter : LogFilter) (name : Bytes) : Decidable (filter.IsNamed name) :=
  inferInstanceAs (Decidable (_ = _))

theorem mem_all (filter : LogFilter) : filter ∈ all := by
  cases filter with
  | off => decide
  | upTo level => cases level <;> decide

theorem isNamed_iff {filter : LogFilter} {name : Bytes} :
    filter.IsNamed name ↔ name.map Ascii.toUpper = Bytes.ofText filter.name := by
  have hupper : Ascii.toUpper ∘ Ascii.toLower = Ascii.toUpper :=
    funext (Bytes.forall_byte (by decide +kernel))
  have hlower : Ascii.toLower ∘ Ascii.toUpper = Ascii.toLower :=
    funext (Bytes.forall_byte (by decide +kernel))
  have hcases : ∀ filter ∈ all,
      (Bytes.ofText filter.word).map Ascii.toUpper = Bytes.ofText filter.name ∧
      (Bytes.ofText filter.name).map Ascii.toLower = Bytes.ofText filter.word := by decide
  obtain ⟨hword, hname⟩ := hcases filter (mem_all filter)
  constructor
  · intro h
    rw [← hword, ← h, List.map_map, hupper]
  · intro h
    rw [IsNamed, ← hname, ← h, List.map_map, hlower]

theorem ofName?_eq_some_iff {name : Bytes} {filter : LogFilter} :
    ofName? name = some filter ↔ filter.IsNamed name := by
  have hfound : ∀ filter ∈ all,
      (all.find? fun other => Bytes.ofText other.name == Bytes.ofText filter.name) =
        some filter := by
    decide
  rw [isNamed_iff]
  constructor
  · intro h
    rw [ofName?] at h
    have hsame := List.find?_some h
    rw [beq_iff_eq] at hsame
    exact hsame.symm
  · intro h
    rw [ofName?, h]
    exact hfound filter (mem_all filter)

/-- The words are plain text, so bytes that are no text name no filter. -/
theorem IsNamed.exists_text {filter : LogFilter} {name : Bytes} (h : filter.IsNamed name) :
    ∃ text, Bytes.ofText text = name := by
  have hplain : ∀ filter ∈ all, ∀ b ∈ Bytes.ofText filter.word, b.toNat < 128 := by
    decide +kernel
  have hbyte : ∀ b, (Ascii.toLower b).toNat < 128 → b.toNat < 128 :=
    Bytes.forall_byte (by decide +kernel)
  refine ⟨Bytes.glyphs name, Bytes.ofText_glyphs fun b hb => hbyte b ?_⟩
  exact hplain filter (mem_all filter) _ (h ▸ List.mem_map_of_mem hb)

end LogFilter

namespace Options

open CommandLine (Token)

/-- What a pass over some tokens has come to. -/
structure Pass where
  options : Options := {}
  /-- All records that were made. -/
  made : List LogRecord := []
  /-- The records that the filter in force has let through. -/
  emitted : List LogRecord := []

namespace Pass

def note (inForce : LogFilter) (pass : Pass) (record : LogRecord) : Pass :=
  { pass with
    made := pass.made ++ [record]
    emitted := pass.emitted ++ if inForce.admits record.level then [record] else [] }

/-- Go on with the next token. The text of a value is read as the name of a filter. -/
def step (filterOf? : String → Option LogFilter) (inForce : LogFilter) (pass : Pass) :
    Token → Pass
  | .flag name =>
    if name = verboseName then { pass with options := { pass.options with verbose := true } }
    else pass.note inForce (remark (.flag name))
  | .option key value =>
    if key = logLevelName then
      match value.text?.bind filterOf? with
      | some filter => { pass with options := { pass.options with filter := filter } }
      | none => pass.note inForce (remark (.option key value))
    else pass.note inForce (remark (.option key value))

/-- A whole pass, while a filter is in force. -/
def through (filterOf? : String → Option LogFilter) (inForce : LogFilter) (tokens : List Token) :
    Pass :=
  tokens.foldl (step filterOf? inForce) {}

end Pass

section

variable {filterOf? : String → Option LogFilter}
  (hnames : ∀ text filter, filterOf? text = some filter ↔ filter.IsNamed (Bytes.ofText text))

include hnames

theorem bind_filterOf? (value : Bytes) : value.text?.bind filterOf? = LogFilter.ofName? value := by
  apply Option.ext
  intro filter
  rw [LogFilter.ofName?_eq_some_iff, Option.bind_eq_some_iff]
  constructor
  · rintro ⟨text, htext, hfilter⟩
    rw [← Bytes.text?_eq_some_iff.mp htext]
    exact (hnames text filter).mp hfilter
  · intro hnamed
    obtain ⟨text, rfl⟩ := hnamed.exists_text
    exact ⟨text, Bytes.text?_eq_some_iff.mpr rfl, (hnames text filter).mpr hnamed⟩

namespace Pass

/-- A token sets its option, or leaves its remark. -/
theorem step_eq (inForce : LogFilter) (pass : Pass) (token : Token) :
    pass.step filterOf? inForce token =
      match setting? token with
      | some setting => { pass with options := pass.options.apply setting }
      | none => pass.note inForce (remark token) := by
  cases token with
  | flag name =>
      rw [step, setting?]
      split <;> rfl
  | option key value =>
      rw [step, setting?, bind_filterOf? hnames]
      split
      · cases LogFilter.ofName? value <;> rfl
      · rfl

/-- A pass that goes on adds the settings and the remarks of the tokens that come. -/
theorem foldl_step (inForce : LogFilter) (tokens : List Token) (pass : Pass) :
    tokens.foldl (step filterOf? inForce) pass =
      { options := (tokens.filterMap setting?).foldl apply pass.options
        made := pass.made ++ remarks tokens
        emitted := pass.emitted ++ (remarks tokens).filter (inForce.admits ·.level) } := by
  induction tokens generalizing pass with
  | nil => simp [remarks]
  | cons token rest ih =>
      rw [List.foldl_cons, step_eq hnames]
      cases hsetting : setting? token with
      | some setting =>
          have hremarks : remarks (token :: rest) = remarks rest := by simp [remarks, hsetting]
          rw [ih, List.filterMap_cons_some hsetting, hremarks, List.foldl_cons]
      | none =>
          have hremarks : remarks (token :: rest) = remark token :: remarks rest := by
            simp [remarks, hsetting]
          rw [ih, List.filterMap_cons_none hsetting, hremarks]
          by_cases hadmits : inForce.admits (remark token).level = true <;>
            simp [note, hadmits]

theorem through_eq (inForce : LogFilter) (tokens : List Token) :
    through filterOf? inForce tokens =
      { options := ofTokens tokens
        made := remarks tokens
        emitted := (remarks tokens).filter (inForce.admits ·.level) } :=
  foldl_step hnames inForce tokens {}

end Pass

end

/-- The token is the option `loglevel` with the name of the filter. -/
def Names (token : Token) (filter : LogFilter) : Prop :=
  ∃ value, token = .option (Bytes.ofText "loglevel") value ∧ filter.IsNamed value

def SetsOption (token : Token) : Prop :=
  token = .flag (Bytes.ofText "verbose") ∨ ∃ filter, Names token filter

/-- The filter is the one that the last of the tokens names, or the default one if none does. -/
def LastNamed (tokens : List Token) (filter : LogFilter) : Prop :=
  (∃ before token after, tokens = before ++ token :: after ∧ Names token filter ∧
    ∀ later ∈ after, ∀ other, ¬ Names later other) ∨
  filter = .upTo .info ∧ ∀ token ∈ tokens, ∀ other, ¬ Names token other

theorem filterNamed?_eq_some_iff {token : Token} {filter : LogFilter} :
    filterNamed? token = some filter ↔ Names token filter := by
  cases token with
  | flag name => simp [filterNamed?, Names]
  | option key value =>
      have hnames : Names (.option key value) filter ↔
          key = logLevelName ∧ LogFilter.ofName? value = some filter := by
        rw [LogFilter.ofName?_eq_some_iff]
        constructor
        · rintro ⟨named, hsame, hvalue⟩
          cases hsame
          exact ⟨rfl, hvalue⟩
        · rintro ⟨rfl, hvalue⟩
          exact ⟨value, rfl, hvalue⟩
      rw [hnames]
      by_cases hkey : key = logLevelName <;> simp [filterNamed?, hkey]

theorem filterNamed?_eq_none_iff {token : Token} :
    filterNamed? token = none ↔ ∀ filter, ¬ Names token filter := by
  simp only [Option.eq_none_iff_forall_ne_some, ne_eq, filterNamed?_eq_some_iff]

theorem setting?_eq_none_iff {token : Token} : setting? token = none ↔ ¬ SetsOption token := by
  rw [SetsOption, not_or, not_exists, ← filterNamed?_eq_none_iff]
  cases token with
  | flag name =>
      change (if name = verboseName then _ else _) = _ ↔ ¬ Token.flag name = .flag verboseName ∧ _
      by_cases hname : name = verboseName <;> simp [hname, filterNamed?]
  | option key value =>
      by_cases hkey : key = logLevelName <;> simp [setting?, filterNamed?, hkey]

instance : DecidablePred SetsOption := fun token =>
  decidable_of_iff (¬ setting? token = none) (by rw [setting?_eq_none_iff, Classical.not_not])

theorem lastNamed_ofTokens (tokens : List Token) : LastNamed tokens (ofTokens tokens).filter := by
  rw [filter_ofTokens]
  cases hlast : (tokens.filterMap filterNamed?).getLast? with
  | none =>
      have hnone := List.filterMap_eq_nil_iff.mp (List.getLast?_eq_none_iff.mp hlast)
      exact .inr ⟨rfl, fun token htoken => filterNamed?_eq_none_iff.mp (hnone token htoken)⟩
  | some filter =>
      obtain ⟨earlier, hnamed⟩ := List.getLast?_eq_some_iff.mp hlast
      obtain ⟨before, behind, rfl, -, hbehind⟩ := List.filterMap_eq_append_iff.mp hnamed
      obtain ⟨between, token, after, rfl, -, htoken, hafter⟩ :=
        List.filterMap_eq_cons_iff.mp hbehind
      refine .inl ⟨before ++ between, token, after, (List.append_assoc ..).symm,
        filterNamed?_eq_some_iff.mp htoken, fun later hlater => ?_⟩
      exact filterNamed?_eq_none_iff.mp (List.filterMap_eq_nil_iff.mp hafter later hlater)

theorem remarks_eq (tokens : List Token) :
    remarks tokens = (tokens.filter (¬ SetsOption ·)).map remark := by
  have hsame : (fun token => (setting? token).isNone) = fun token => decide (¬ SetsOption token) := by
    funext token
    rw [Bool.eq_iff_iff, Option.isNone_iff_eq_none, setting?_eq_none_iff, decide_eq_true_iff]
  rw [remarks, hsame]

/-- Only an option `loglevel` is warned of. -/
theorem level_remark (token : Token) :
    ((remark token).level = .warn ↔ ∃ value, token = .option (Bytes.ofText "loglevel") value) ∧
    ((remark token).level = .warn ∨ (remark token).level = .debug) := by
  cases token with
  | flag name => simp [remark]
  | option key value =>
      change (_ ↔ ∃ other, Token.option key value = .option logLevelName other) ∧ _
      by_cases hkey : key = logLevelName <;> simp [remark, hkey]

/-- The options on a command line mean what they say, whatever the log lets through while they are
read. A boot is verbose exactly if one of the tokens is the flag `verbose`, and the filter is the
last one that a token names. The other tokens leave one record each, in their order: a warning for
an option `loglevel` and a debug record for anything else; and the log gets those of them that the
filter in force admits. -/
theorem pass_reads_options {filterOf? : String → Option LogFilter}
    (hnames : ∀ text filter, filterOf? text = some filter ↔ filter.IsNamed (Bytes.ofText text))
    (buffer : Bytes) (inForce : LogFilter) :
    let tokens := CommandLine.tokens buffer
    let pass := Pass.through filterOf? inForce tokens
    pass.options = ofCommandLine buffer ∧
    (pass.options.verbose = true ↔ .flag (Bytes.ofText "verbose") ∈ tokens) ∧
    LastNamed tokens pass.options.filter ∧
    pass.made = remarks tokens ∧
    pass.made = (tokens.filter (¬ SetsOption ·)).map remark ∧
    (∀ token, ((remark token).level = .warn ↔
        ∃ value, token = .option (Bytes.ofText "loglevel") value) ∧
      ((remark token).level = .warn ∨ (remark token).level = .debug)) ∧
    pass.emitted = pass.made.filter (inForce.admits ·.level) ∧
    Boot.emitted inForce (pass.made.map .record) = pass.emitted := by
  intro tokens pass
  have hpass : pass = ⟨ofTokens tokens, remarks tokens, _⟩ := Pass.through_eq hnames inForce tokens
  have hsteady : Boot.Steady ((remarks tokens).map .record) :=
    List.forall_mem_map.mpr fun _ _ => rfl
  have hemitted := hsteady.emitted inForce
  rw [hpass]
  refine ⟨rfl, verbose_ofTokens tokens, lastNamed_ofTokens tokens, rfl, remarks_eq tokens,
    level_remark, rfl, hemitted.trans ?_⟩
  rw [List.filterMap_map, show Boot.Entry.record? ∘ Boot.Entry.record = some from rfl,
    List.filterMap_some]

/-- A word in quotes and an option that only begin with the flag, a level in mixed letters before
one that there is not and one that is no text, and a flag with the name of the option. -/
def sampleLine : Bytes :=
  Bytes.ofText "/boot/nekko.bin verbose=1 \"verbose on\" loglevel=error loglevel=WaRn " ++
    Bytes.ofText "loglevel=loud loglevel=" ++ [0xFF] ++ Bytes.ofText " loglevel quiet"

theorem pass_over_sampleLine :
    let filterOf? (text : String) := LogFilter.ofName? (Bytes.ofText text)
    (∀ text filter, filterOf? text = some filter ↔ filter.IsNamed (Bytes.ofText text)) ∧
    (let pass := Pass.through filterOf? (.upTo .warn) (CommandLine.tokens sampleLine)
     pass.options = { filter := .upTo .warn, verbose := false } ∧
     pass.made.length = 7 ∧ pass.emitted.length = 2) := by
  intro filterOf?
  have hnames : ∀ text filter, filterOf? text = some filter ↔
      filter.IsNamed (Bytes.ofText text) := fun _ _ => LogFilter.ofName?_eq_some_iff
  obtain ⟨hoptions, -, -, hmade, -, -, hemitted, -⟩ :=
    pass_reads_options hnames sampleLine (.upTo .warn)
  refine ⟨hnames, hoptions.trans (by decide +kernel), ?_, ?_⟩
  · rw [hmade]
    decide +kernel
  · rw [hemitted, hmade]
    decide +kernel

end Options

end EarlyBoot
