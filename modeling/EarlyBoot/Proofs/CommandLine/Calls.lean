import EarlyBoot.Proofs.CommandLine.Pieces

/-!
Reading a command line call by call. A reader keeps the input that it has not read; each call finds
indices in it and cuts it there. No cut is out of range, a call that has a token leaves less input
than there was, and once a call has none no later call has one.
-/

namespace EarlyBoot.CommandLine

open Bytes (cutFrom cutTo cutFrom_of_le cutTo_of_le)

/-- The symbol at the start of the input, cut out by indices, and what is left of the input. -/
def cutSymbol (stop : UInt8 → Bool) (input : Bytes) : Except Fault (Option (Bytes × Bytes)) :=
  match input with
  | [] => .ok none
  | c :: rest =>
    if c = quote then
      match Terminated.find? rest quote with
      | none => .ok (some (rest, []))
      | some i => do return some (← cutTo rest i, ← cutFrom rest (i + 1))
    else do
      let i := input.findIdx stop
      return some (← cutTo input i, ← cutFrom input i)

/-- One call: the token, if there is one, and the input that is left. -/
def call (input : Bytes) : Except Fault (Option Token × Bytes) := do
  let start ← cutFrom input (input.takeWhile Ascii.isSpace).length
  match ← cutSymbol endsKey start with
  | none => return (none, start)
  | some (key, rest) =>
    match afterEquals? rest with
    | none => return (some (.flag key), rest)
    | some rest =>
      match ← cutSymbol Ascii.isSpace rest with
      | none => return (some (.option key []), rest)
      | some (value, rest) => return (some (.option key value), rest)

/-- The answers of `n` calls in a row, and the input that they leave. -/
def calls : Nat → Bytes → Except Fault (List (Option Token) × Bytes)
  | 0, input => .ok ([], input)
  | n + 1, input => do
    let (answer, rest) ← call input
    let (answers, unread) ← calls n rest
    return (answer :: answers, unread)

/-- A symbol without quotes ends at the index of the first byte that stops it. -/
theorem symbol?_of_ne_quote (stop : UInt8 → Bool) {c : UInt8} (hc : c ≠ quote) (rest : Bytes) :
    symbol? stop (c :: rest) =
      some ((c :: rest).take ((c :: rest).findIdx stop),
        (c :: rest).drop ((c :: rest).findIdx stop)) := by
  rw [symbol?, if_neg hc, List.takeWhile_eq_take_findIdx_not, List.dropWhile_eq_drop_findIdx_not]
  simp only [Bool.not_not]

/-- A symbol in quotes ends at the index of the next quote. -/
theorem symbol?_of_quote (stop : UInt8 → Bool) (rest : Bytes) :
    symbol? stop (quote :: rest) =
      some (rest.take (rest.findIdx (· == quote)), rest.drop (rest.findIdx (· == quote) + 1)) := by
  have hpredicate : (fun c : UInt8 => ! decide (c ≠ quote)) = (· == quote) := by
    funext c
    by_cases hc : c = quote <;> simp [hc]
  rw [symbol?, if_pos rfl, List.takeWhile_eq_take_findIdx_not, List.dropWhile_eq_drop_findIdx_not,
    hpredicate, List.tail_drop]

/-- The cuts that take a symbol off the input are in range. -/
theorem cutSymbol_eq (stop : UInt8 → Bool) {input : Bytes} (hzero : (0 : UInt8) ∉ input) :
    cutSymbol stop input = .ok (symbol? stop input) := by
  cases input with
  | nil => rfl
  | cons c rest =>
      by_cases hc : c = quote
      · subst hc
        have hfind : Terminated.find? rest quote = rest.findIdx? (· == quote) := by
          have hrest : (0 : UInt8) ∉ rest := fun hmem => hzero (List.mem_cons_of_mem _ hmem)
          rw [Terminated.find?, if_neg (by decide), Terminated.content_eq_self hrest]
          rfl
        rw [symbol?_of_quote, cutSymbol, if_pos rfl, hfind]
        cases hindex : rest.findIdx? (· == quote) with
        | none =>
            have hnone : rest.findIdx (· == quote) = rest.length := by
              rw [List.findIdx_eq_length]
              exact List.findIdx?_eq_none_iff.mp hindex
            rw [hnone, List.take_length, List.drop_eq_nil_of_le (Nat.le_succ _)]
        | some i =>
            obtain ⟨hlt, rfl⟩ := List.findIdx?_eq_some_iff_findIdx_eq.mp hindex
            simp only
            rw [cutTo_of_le (Nat.le_of_lt hlt), cutFrom_of_le hlt]
            rfl
      · have hle : (c :: rest).findIdx stop ≤ (c :: rest).length := List.findIdx_le_length
        rw [symbol?_of_ne_quote stop hc, cutSymbol, if_neg hc]
        simp only
        rw [cutTo_of_le hle, cutFrom_of_le hle]
        rfl

theorem suffix_of_next? {line rest : Bytes} {token : Token}
    (h : next? line = some (token, rest)) : rest <:+ line := by
  obtain ⟨gap, text, rfl, -, -⟩ := tokenText_of_next? h
  rw [← List.append_assoc]
  exact List.suffix_append _ _

theorem length_takeWhile_le (line : Bytes) :
    (line.takeWhile Ascii.isSpace).length ≤ line.length :=
  (List.takeWhile_prefix Ascii.isSpace).length_le

theorem drop_length_takeWhile (line : Bytes) :
    line.drop (line.takeWhile Ascii.isSpace).length = line.dropWhile Ascii.isSpace := by
  have hsplit : line.takeWhile Ascii.isSpace ++ line.dropWhile Ascii.isSpace = line :=
    List.takeWhile_append_dropWhile
  conv => lhs; arg 2; rw [← hsplit]
  exact List.drop_left

/-- A call gives the next token and what follows it, and leaves nothing of a line without one. -/
theorem call_eq {input : Bytes} (hzero : (0 : UInt8) ∉ input) :
    call input = .ok
      (match next? input with
        | none => (none, [])
        | some (token, rest) => (some token, rest)) := by
  have hstart : (0 : UInt8) ∉ input.dropWhile Ascii.isSpace := fun hmem =>
    hzero ((List.dropWhile_suffix Ascii.isSpace).subset hmem)
  rw [call, cutFrom_of_le (length_takeWhile_le input), drop_length_takeWhile, next?]
  simp only [bind, Except.bind, cutSymbol_eq endsKey hstart]
  cases hkey : symbol? endsKey (input.dropWhile Ascii.isSpace) with
  | none =>
      rw [eq_nil_of_symbol? hkey]
      rfl
  | some found =>
      obtain ⟨key, afterKey⟩ := found
      simp only
      cases hsign : afterEquals? afterKey with
      | none => rfl
      | some afterSign =>
          have hvalueZero : (0 : UInt8) ∉ afterSign := by
            obtain rfl := afterEquals?_eq_some.mp hsign
            obtain ⟨keyText, htext, -⟩ := symbolText_of_symbol? hkey
            intro hmem
            exact hstart (by rw [htext]; simp [hmem])
          simp only [cutSymbol_eq Ascii.isSpace hvalueZero]
          cases hvalue : symbol? Ascii.isSpace afterSign with
          | none =>
              rw [eq_nil_of_symbol? hvalue]
              rfl
          | some _ => rfl

/-- Calls in a row give the tokens of the line in their order, and no token from then on. What they
leave unread holds the other tokens. -/
theorem calls_eq (n : Nat) {input : Bytes} (hzero : (0 : UInt8) ∉ input) :
    ∃ unread, unread <:+ input ∧ tokensOf unread = (tokensOf input).drop n ∧
      calls n input = .ok ((List.range n).map ((tokensOf input)[·]?), unread) := by
  induction n generalizing input with
  | zero => exact ⟨input, List.suffix_refl input, rfl, rfl⟩
  | succ n ih =>
      rw [calls, call_eq hzero, tokensOf_eq, List.range_succ_eq_map, List.map_cons, List.map_map]
      cases hnext : next? input with
      | none =>
          have hend : tokensOf [] = [] := tokensOf_eq []
          obtain ⟨unread, hunread, htokens, hcalls⟩ := ih (List.not_mem_nil (a := (0 : UInt8)))
          rw [hend, List.drop_nil] at htokens
          refine ⟨unread, hunread.trans List.nil_suffix, htokens, ?_⟩
          simp only [bind, Except.bind, hcalls, hend]
          rfl
      | some found =>
          obtain ⟨token, rest⟩ := found
          have hrest := suffix_of_next? hnext
          obtain ⟨unread, hunread, htokens, hcalls⟩ := ih fun hmem => hzero (hrest.subset hmem)
          refine ⟨unread, hunread.trans hrest, htokens, ?_⟩
          simp only [bind, Except.bind, hcalls]
          rfl

/-- However a line is written, reading it ends and nothing of it is lost. The tokens are no more than
the bytes; the line is their texts, so a bare key holds neither white space nor an equals sign, a
bare value no white space and a symbol in quotes no quote; and what the line holds besides their
symbols are separators. No cut is out of range, a call with a token leaves less than it found, and
one without a token leaves nothing. -/
theorem tokens_account_for_line (buffer : Bytes) :
    let line := Terminated.content buffer
    (tokens buffer).length ≤ line.length ∧ LineText (tokens buffer) line ∧
    Woven ((tokens buffer).flatMap Token.pieces) line ∧
    ∀ n, ∃ unread rest,
      calls n line = .ok ((List.range n).map ((tokens buffer)[·]?), unread) ∧
      call unread = .ok ((tokens buffer)[n]?, rest) ∧
      if n < (tokens buffer).length then rest.length < unread.length else rest = [] := by
  intro line
  have hzero : (0 : UInt8) ∉ line := Terminated.zero_notMem_content buffer
  have htext : LineText (tokens buffer) line := lineText_tokensOf line
  refine ⟨length_tokensOf_le line, htext, htext.woven, fun n => ?_⟩
  obtain ⟨unread, hunread, htokens, hcalls⟩ := calls_eq n hzero
  have hcall := call_eq fun hmem => hzero (hunread.subset hmem)
  have hhead : (tokensOf unread).head? = (tokens buffer)[n]? := by
    rw [htokens, List.head?_drop]
    rfl
  rw [tokensOf_eq] at hhead
  cases hnext : next? unread with
  | none =>
      rw [hnext] at hcall hhead
      have hend : ¬ n < (tokens buffer).length :=
        Nat.not_lt.mpr (List.getElem?_eq_none_iff.mp hhead.symm)
      exact ⟨unread, [], hcalls, hhead ▸ hcall, by rw [if_neg hend]⟩
  | some found =>
      obtain ⟨token, rest⟩ := found
      rw [hnext] at hcall hhead
      have hmore : n < (tokens buffer).length := (List.getElem?_eq_some_iff.mp hhead.symm).1
      refine ⟨unread, rest, hcalls, hhead ▸ hcall, ?_⟩
      rw [if_pos hmore]
      exact length_lt_of_next? hnext

end EarlyBoot.CommandLine
