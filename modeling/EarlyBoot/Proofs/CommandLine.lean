import EarlyBoot.CommandLine
import EarlyBoot.Proofs.Stretch
import EarlyBoot.Proofs.Terminated

/-!
The command line as its writer sees it. A key or a value is written in quotes or bare, tokens are
set apart by white space, and none of these choices is visible to the reader: the tokens that were
written are the tokens that are read.
-/

namespace EarlyBoot.CommandLine

open Bytes (StopsAt stopsAt_nil stopsAt_cons takeWhile_append_of_stop)

/-- White space and nothing else. -/
def Blank (gap : Bytes) : Prop :=
  ∀ c ∈ gap, Ascii.isSpace c = true

instance (gap : Bytes) : Decidable (Blank gap) :=
  inferInstanceAs (Decidable (∀ c ∈ gap, Ascii.isSpace c = true))

/-- A key that needs no quotes. -/
structure BareKey (key : Bytes) : Prop where
  ne_nil : key ≠ []
  head_ne : key.head? ≠ some quote
  free : ∀ c ∈ key, Ascii.isSpace c = false ∧ c ≠ equalsSign

/-- A value that needs no quotes. It may be empty and may hold equals signs. -/
structure BareValue (value : Bytes) : Prop where
  head_ne : value.head? ≠ some quote
  free : ∀ c ∈ value, Ascii.isSpace c = false

/-- The ways to write a symbol: in quotes, or as it is where that is allowed. -/
inductive SymbolForm (bare : Bytes → Prop) (symbol : Bytes) : Bytes → Prop where
  | quoted : quote ∉ symbol → SymbolForm bare symbol (quote :: (symbol ++ [quote]))
  | bare : bare symbol → SymbolForm bare symbol symbol

inductive TokenForm : Token → Bytes → Prop where
  | flag {name text : Bytes} : SymbolForm BareKey name text → TokenForm (.flag name) text
  | option {key value keyText valueText : Bytes} :
      SymbolForm BareKey key keyText → SymbolForm BareValue value valueText →
      TokenForm (.option key value) (keyText ++ equalsSign :: valueText)

/-- Tokens from the first one on, each with the white space behind it. Only the last one may go
without. -/
inductive TokensForm : List Token → Bytes → Prop where
  | nil : TokensForm [] []
  | cons {token : Token} {tokens : List Token} {text gap line : Bytes} :
      TokenForm token text → Blank gap → (tokens ≠ [] → gap ≠ []) → TokensForm tokens line →
      TokensForm (token :: tokens) (text ++ (gap ++ line))

/-- A command line that is a written form of these tokens. -/
def LineForm (tokens : List Token) (line : Bytes) : Prop :=
  ∃ before body, Blank before ∧ TokensForm tokens body ∧ line = before ++ body

def Token.symbols : Token → Bytes
  | .flag name => name
  | .option key value => key ++ value

theorem symbol?_quoted (stop : UInt8 → Bool) {symbol : Bytes} (h : quote ∉ symbol) (rest : Bytes) :
    symbol? stop (quote :: (symbol ++ [quote]) ++ rest) = some (symbol, rest) := by
  have hsymbol : ∀ c ∈ symbol, (c == quote) = false := by
    intro c hc
    exact beq_false_of_ne fun heq => h (heq ▸ hc)
  have hrest : StopsAt (· == quote) (quote :: rest) := stopsAt_cons (by decide) rest
  obtain ⟨htake, hdrop⟩ := takeWhile_append_of_stop hsymbol hrest
  have hpredicate : (fun c : UInt8 => decide (c ≠ quote)) = fun c => ! (c == quote) := by
    funext c
    by_cases hc : c = quote <;> simp [hc]
  rw [List.cons_append, List.append_assoc, symbol?, if_pos rfl, hpredicate]
  change some ((symbol ++ quote :: rest).takeWhile _,
    ((symbol ++ quote :: rest).dropWhile _).tail) = _
  rw [htake, hdrop]
  rfl

theorem symbol?_bare {stop : UInt8 → Bool} {symbol rest : Bytes}
    (hhead : symbol.head? ≠ some quote) (hsymbol : ∀ c ∈ symbol, stop c = false)
    (hquote : stop quote = false) (hrest : StopsAt stop rest) (hne : symbol ++ rest ≠ []) :
    symbol? stop (symbol ++ rest) = some (symbol, rest) := by
  obtain ⟨htake, hdrop⟩ := takeWhile_append_of_stop hsymbol hrest
  cases hline : symbol ++ rest with
  | nil => exact absurd hline hne
  | cons c tail =>
      have hc : c ≠ quote := by
        rintro rfl
        cases symbol with
        | nil =>
            have hstop := hrest quote (by rw [List.nil_append] at hline; rw [hline]; rfl)
            rw [hquote] at hstop
            cases hstop
        | cons a more =>
            rw [List.cons_append, List.cons.injEq] at hline
            exact hhead (by rw [hline.1]; rfl)
      rw [symbol?, if_neg hc, ← hline, htake, hdrop]

/-- A written symbol is read back whole, and reading stops behind it. -/
theorem symbol?_of_form {stop : UInt8 → Bool} {bare : Bytes → Prop} {symbol text rest : Bytes}
    (hbare : bare symbol → symbol.head? ≠ some quote ∧ ∀ c ∈ symbol, stop c = false)
    (hquote : stop quote = false) (hform : SymbolForm bare symbol text)
    (hrest : StopsAt stop rest) (hne : text ++ rest ≠ []) :
    symbol? stop (text ++ rest) = some (symbol, rest) := by
  cases hform with
  | quoted hfree => exact symbol?_quoted stop hfree rest
  | bare h => exact symbol?_bare (hbare h).1 (hbare h).2 hquote hrest hne

theorem BareKey.free_of_endsKey {key : Bytes} (h : BareKey key) :
    ∀ c ∈ key, endsKey c = false := by
  intro c hc
  obtain ⟨hspace, hequals⟩ := h.free c hc
  simp [endsKey, hspace, hequals]

theorem exists_head_of_keyForm {key text : Bytes} (h : SymbolForm BareKey key text) :
    ∃ c tail, text = c :: tail ∧ Ascii.isSpace c = false := by
  cases h with
  | quoted _ => exact ⟨quote, _, rfl, by decide⟩
  | bare hbare =>
      cases key with
      | nil => exact absurd rfl hbare.ne_nil
      | cons c tail => exact ⟨c, tail, rfl, (hbare.free c (by simp)).1⟩

theorem symbol?_key {key text rest : Bytes} (h : SymbolForm BareKey key text)
    (hrest : StopsAt endsKey rest) :
    symbol? endsKey ((text ++ rest).dropWhile Ascii.isSpace) = some (key, rest) := by
  obtain ⟨c, tail, rfl, hc⟩ := exists_head_of_keyForm h
  rw [List.cons_append, List.dropWhile_cons_of_neg (by simp [hc]), ← List.cons_append]
  exact symbol?_of_form (fun hbare => ⟨hbare.head_ne, hbare.free_of_endsKey⟩) (by decide) h hrest
    (by simp)

/-- A written token is read back, and reading stops behind it. -/
theorem next?_of_form {token : Token} {text rest : Bytes} (h : TokenForm token text)
    (hrest : StopsAt Ascii.isSpace rest) : next? (text ++ rest) = some (token, rest) := by
  cases h with
  | flag hname =>
      have hkey : StopsAt endsKey rest := by
        intro c hc
        simp [endsKey, hrest c hc]
      have hequals : afterEquals? rest = none := by
        cases rest with
        | nil => rfl
        | cons c tail =>
            have hc : c ≠ equalsSign := by
              rintro rfl
              exact absurd (hrest _ rfl) (by decide)
            exact if_neg hc
      simp only [next?, symbol?_key hname hkey, hequals]
  | @option key value keyText valueText hkey hvalue =>
      have hsign : StopsAt endsKey (equalsSign :: (valueText ++ rest)) :=
        stopsAt_cons (by decide) _
      have hafter : afterEquals? (equalsSign :: (valueText ++ rest)) =
          some (valueText ++ rest) := by
        rw [afterEquals?, if_pos rfl]
      rw [List.append_assoc, List.cons_append]
      simp only [next?, symbol?_key hkey hsign, hafter]
      by_cases hne : valueText ++ rest = []
      · obtain ⟨rfl, rfl⟩ := List.append_eq_nil_iff.mp hne
        cases hvalue
        rfl
      · rw [symbol?_of_form (fun hbare => ⟨hbare.head_ne, hbare.free⟩) (by decide) hvalue hrest hne]

theorem next?_blank_append {gap : Bytes} (h : Blank gap) (line : Bytes) :
    next? (gap ++ line) = next? line := by
  rw [next?, next?, List.dropWhile_append_of_pos h]

theorem tokensOf_eq (line : Bytes) :
    tokensOf line =
      match next? line with
      | none => []
      | some (token, rest) => token :: tokensOf rest := by
  rw [tokensOf]
  split <;> rename_i hnext <;> rw [hnext]

theorem tokensOf_blank_append {gap : Bytes} (h : Blank gap) (line : Bytes) :
    tokensOf (gap ++ line) = tokensOf line := by
  rw [tokensOf_eq, next?_blank_append h, ← tokensOf_eq]

/-- Behind a token the line ends or goes on with white space. -/
theorem stopsAt_gap {gap line : Bytes} {tokens : List Token} (hgap : Blank gap)
    (hapart : tokens ≠ [] → gap ≠ []) (h : TokensForm tokens line) :
    StopsAt Ascii.isSpace (gap ++ line) := by
  intro c hc
  cases gap with
  | cons a more =>
      cases hc
      exact hgap c (by simp)
  | nil =>
      cases h with
      | nil => cases hc
      | cons _ _ _ _ => exact absurd rfl (hapart (by simp))

theorem tokensOf_of_form {tokens : List Token} {line : Bytes} (h : TokensForm tokens line) :
    tokensOf line = tokens := by
  induction h with
  | nil => rw [tokensOf_eq]; rfl
  | cons htoken hgap hapart hrest ih =>
      rw [tokensOf_eq, next?_of_form htoken (stopsAt_gap hgap hapart hrest)]
      simp only [tokensOf_blank_append hgap, ih]

theorem zero_notMem_of_symbolForm {bare : Bytes → Prop} {symbol text : Bytes}
    (h : SymbolForm bare symbol text) (hzero : (0 : UInt8) ∉ symbol) : (0 : UInt8) ∉ text := by
  have hquote : (0 : UInt8) ≠ quote := by decide
  cases h with
  | quoted _ => simp [hquote, hzero]
  | bare _ => exact hzero

theorem zero_notMem_of_tokenForm {token : Token} {text : Bytes} (h : TokenForm token text)
    (hzero : (0 : UInt8) ∉ token.symbols) : (0 : UInt8) ∉ text := by
  have hequals : (0 : UInt8) ≠ equalsSign := by decide
  cases h with
  | flag hname => exact zero_notMem_of_symbolForm hname hzero
  | option hkey hvalue =>
      simp only [Token.symbols, List.mem_append, not_or] at hzero
      have hkeyText := zero_notMem_of_symbolForm hkey hzero.1
      have hvalueText := zero_notMem_of_symbolForm hvalue hzero.2
      simp [hequals, hkeyText, hvalueText]

theorem zero_notMem_of_blank {gap : Bytes} (h : Blank gap) : (0 : UInt8) ∉ gap := by
  intro hmem
  exact absurd (h 0 hmem) (by decide)

/-- Symbols without a zero byte are written without one. -/
theorem zero_notMem_of_form {tokens : List Token} {line : Bytes} (h : TokensForm tokens line)
    (hzero : ∀ token ∈ tokens, (0 : UInt8) ∉ token.symbols) : (0 : UInt8) ∉ line := by
  induction h with
  | nil => simp
  | cons htoken hgap _ _ ih =>
      have htext := zero_notMem_of_tokenForm htoken (hzero _ (by simp))
      have hline := ih fun token hmem => hzero token (by simp [hmem])
      simp [htext, zero_notMem_of_blank hgap, hline]

/-- Reading undoes writing: however the symbols of some tokens are quoted and whatever white space
sets them apart, the tokens of the line are these, and what stands behind a zero byte does not
count. -/
theorem tokens_of_lineForm {tokens : List Token} {line : Bytes}
    (hzero : ∀ token ∈ tokens, (0 : UInt8) ∉ token.symbols) (h : LineForm tokens line) :
    CommandLine.tokens line = tokens ∧
      ∀ behind, CommandLine.tokens (line ++ 0 :: behind) = tokens := by
  obtain ⟨before, body, hbefore, hbody, rfl⟩ := h
  have hread : tokensOf (before ++ body) = tokens := by
    rw [tokensOf_blank_append hbefore, tokensOf_of_form hbody]
  have hfree : (0 : UInt8) ∉ before ++ body := by
    rw [List.mem_append, not_or]
    exact ⟨zero_notMem_of_blank hbefore, zero_notMem_of_form hbody hzero⟩
  constructor
  · rw [CommandLine.tokens, Terminated.content_eq_self hfree, hread]
  · intro behind
    rw [CommandLine.tokens, Terminated.content_append_zero hfree, hread]

/-- A line with quotes inside a bare value, an equals sign inside a quoted key, and an empty value
at its end. -/
theorem tokens_of_sampleLine :
    let written : List Token :=
      [.option [0x61] [0x62, quote, equalsSign], .flag [], .option [0x63, equalsSign, 0x64] []]
    let line : Bytes :=
      [9, 0x61, equalsSign, 0x62, quote, equalsSign, 32, quote, quote, 10, 13,
        quote, 0x63, equalsSign, 0x64, quote, equalsSign]
    (∀ token ∈ written, (0 : UInt8) ∉ token.symbols) ∧ LineForm written line ∧
    CommandLine.tokens (line ++ [0, 0x65]) = written := by
  intro written line
  have hzero : ∀ token ∈ written, (0 : UInt8) ∉ token.symbols := by decide
  have hfirst : TokenForm (.option [0x61] [0x62, quote, equalsSign])
      ([0x61] ++ equalsSign :: [0x62, quote, equalsSign]) :=
    .option (.bare ⟨by decide, by decide, by decide +kernel⟩) (.bare ⟨by decide, by decide +kernel⟩)
  have hsecond : TokenForm (.flag []) (quote :: ([] ++ [quote])) := .flag (.quoted (by decide))
  have hthird : TokenForm (.option [0x63, equalsSign, 0x64] [])
      (quote :: ([0x63, equalsSign, 0x64] ++ [quote]) ++ equalsSign :: []) :=
    .option (.quoted (by decide)) (.bare ⟨by decide, by decide +kernel⟩)
  have hlast : TokensForm [.option [0x63, equalsSign, 0x64] []]
      (quote :: ([0x63, equalsSign, 0x64] ++ [quote]) ++ equalsSign :: [] ++ ([] ++ [])) :=
    .cons hthird (by decide +kernel) (by decide) .nil
  have hrest : TokensForm [.flag [], .option [0x63, equalsSign, 0x64] []]
      (quote :: ([] ++ [quote]) ++ ([10, 13] ++ _)) :=
    .cons hsecond (by decide +kernel) (by decide) hlast
  have hall : TokensForm written
      ([0x61] ++ equalsSign :: [0x62, quote, equalsSign] ++ ([32] ++ _)) :=
    .cons hfirst (by decide +kernel) (by decide) hrest
  have hform : LineForm written line := ⟨[9], _, by decide +kernel, hall, rfl⟩
  exact ⟨hzero, hform, (tokens_of_lineForm hzero hform).2 [0x65]⟩

end EarlyBoot.CommandLine
