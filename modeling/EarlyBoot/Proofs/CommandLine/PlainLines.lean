import EarlyBoot.Proofs.CommandLine
import EarlyBoot.Proofs.Terminated.MaximalRuns

/-!
Command lines without quotes and equals signs. Their tokens are flags, and the names of these are
the runs of the line between white space.
-/

namespace EarlyBoot

namespace Ascii

/-- The space, tab, line feed, carriage return, form feed and vertical tab. -/
def spaces : Bytes := [0x20, 0x09, 0x0A, 0x0D, 0x0C, 0x0B]

theorem mem_spaces_iff (c : UInt8) : c ∈ spaces ↔ isSpace c = true := by
  refine Bytes.forall_byte ?_ c
  decide +kernel

end Ascii

namespace CommandLine

open Terminated (RunsText runsText_runs content)

/-- Where no byte has a meaning of its own, a token is a run between white space. -/
theorem tokensOf_of_runsText {pieces : List Bytes} {line : Bytes}
    (h : RunsText Ascii.isSpace pieces line) (hquote : quote ∉ line) (hsign : equalsSign ∉ line) :
    tokensOf line = pieces.map .flag := by
  induction h with
  | @nil gap hgap =>
      rw [← List.append_nil gap, tokensOf_blank_append hgap, tokensOf_eq]
      rfl
  | @cons gap run rest pieces hfirst _ ih =>
      rw [List.mem_append, List.mem_append, not_or, not_or] at hquote hsign
      obtain ⟨-, hrunQuote, hrestQuote⟩ := hquote
      obtain ⟨-, hrunSign, hrestSign⟩ := hsign
      have hbare : BareKey run := by
        refine ⟨hfirst.ne_nil, fun hhead => hrunQuote (List.mem_of_head? hhead), fun c hc => ?_⟩
        exact ⟨hfirst.free c hc, fun heq => hrunSign (heq ▸ hc)⟩
      have hnext : next? (run ++ rest) = some (.flag run, rest) :=
        next?_of_form (.flag (.bare hbare)) hfirst.stops
      rw [tokensOf_blank_append hfirst.blank, tokensOf_eq, hnext]
      simp only [ih hrestQuote hrestSign, List.map_cons]

/-- Both ways to cut a line at white space agree where they can: the tokens of a command line
without quotes and equals signs are its runs between the six bytes that are white space, each as a
flag. -/
theorem tokens_of_plain_line {s : Bytes} (hquote : quote ∉ content s)
    (hsign : equalsSign ∉ content s) :
    (∀ c, c ∈ Ascii.spaces ↔ Ascii.isSpace c = true) ∧
    tokens s = (Terminated.tokens s Ascii.spaces).map .flag := by
  have hspaces : content Ascii.spaces = Ascii.spaces := by decide
  have hcontains : Ascii.spaces.contains = Ascii.isSpace := by
    funext c
    rw [Bool.eq_iff_iff, List.contains_iff_mem, Ascii.mem_spaces_iff]
  refine ⟨Ascii.mem_spaces_iff, ?_⟩
  rw [tokens, Terminated.tokens, hspaces, hcontains]
  exact tokensOf_of_runsText (runsText_runs (content s)) hquote hsign

/-- All kinds of white space, at both ends and between words, and a quote behind the terminator. -/
theorem tokens_of_plainSample :
    let s : Bytes := [0x09, 0x61, 0x0B, 0x0C, 0x62, 0x63, 0x20, 0x0D, 0x64, 0x0A, 0, quote]
    quote ∉ content s ∧ equalsSign ∉ content s ∧
    tokens s = [.flag [0x61], .flag [0x62, 0x63], .flag [0x64]] := by
  intro s
  have hquote : quote ∉ content s := by decide
  have hsign : equalsSign ∉ content s := by decide
  have hcut : Terminated.tokens s Ascii.spaces = [[0x61], [0x62, 0x63], [0x64]] := by
    decide +kernel
  obtain ⟨-, hagree⟩ := tokens_of_plain_line hquote hsign
  rw [hcut] at hagree
  exact ⟨hquote, hsign, hagree⟩

end CommandLine

end EarlyBoot
