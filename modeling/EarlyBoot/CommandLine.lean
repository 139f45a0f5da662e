import EarlyBoot.Terminated.Basic

/-!
The kernel command line: words between white space. A word is a flag, or an option with a key, an
equals sign and a value. A key or value in quotes may hold any byte but a quote; otherwise white
space ends it, and an equals sign ends a key. A quote that is never closed reaches to the end.
-/

namespace EarlyBoot.CommandLine

inductive Token where
  | flag (name : Bytes)
  | option (key value : Bytes)
deriving DecidableEq

def quote : UInt8 := '"'.toUInt8

def equalsSign : UInt8 := '='.toUInt8

/-- Whether a byte ends a key that is not in quotes. -/
def endsKey (c : UInt8) : Bool :=
  c == equalsSign || Ascii.isSpace c

/-- The symbol at the start of a command line and what follows it. `stop` tells the bytes that end
a symbol without quotes. -/
def symbol? (stop : UInt8 → Bool) : Bytes → Option (Bytes × Bytes)
  | [] => none
  | c :: rest =>
    if c = quote then some (rest.takeWhile (· ≠ quote), (rest.dropWhile (· ≠ quote)).tail)
    else some ((c :: rest).takeWhile (! stop ·), (c :: rest).dropWhile (! stop ·))

/-- What follows an equals sign at the start of a command line. -/
def afterEquals? : Bytes → Option Bytes
  | [] => none
  | c :: rest => if c = equalsSign then some rest else none

/-- The next token and what follows it. -/
def next? (line : Bytes) : Option (Token × Bytes) :=
  match symbol? endsKey (line.dropWhile Ascii.isSpace) with
  | none => none
  | some (key, rest) =>
    match afterEquals? rest with
    | none => some (.flag key, rest)
    | some rest =>
      match symbol? Ascii.isSpace rest with
      | none => some (.option key [], [])
      | some (value, rest) => some (.option key value, rest)

theorem length_le_of_symbol? {stop : UInt8 → Bool} {s symbol rest : Bytes}
    (h : symbol? stop s = some (symbol, rest)) : rest.length ≤ s.length := by
  cases s with
  | nil => simp [symbol?] at h
  | cons c tail =>
    simp only [symbol?] at h
    split at h <;> simp only [Option.some.injEq, Prod.mk.injEq] at h <;> rw [← h.2]
    · have := (List.dropWhile_suffix (· ≠ quote) (l := tail)).length_le
      simp only [List.length_tail, List.length_cons]
      omega
    · exact (List.dropWhile_suffix _).length_le

theorem length_eq_of_afterEquals? {s rest : Bytes} (h : afterEquals? s = some rest) :
    s.length = rest.length + 1 := by
  cases s with
  | nil => simp [afterEquals?] at h
  | cons c tail =>
    simp only [afterEquals?] at h
    split at h <;> simp_all

/-- A symbol that takes nothing off the line leaves an equals sign at its start. -/
theorem length_lt_of_symbol? {s symbol rest : Bytes} (hs : s.head?.all (! Ascii.isSpace ·))
    (h : symbol? endsKey s = some (symbol, rest)) (he : afterEquals? rest = none) :
    rest.length < s.length := by
  cases s with
  | nil => simp [symbol?] at h
  | cons c tail =>
    have hc : Ascii.isSpace c = false := by simpa using hs
    simp only [symbol?] at h
    split at h <;> simp only [Option.some.injEq, Prod.mk.injEq] at h <;> obtain ⟨_, rfl⟩ := h
    · have := (List.dropWhile_suffix (· ≠ quote) (l := tail)).length_le
      simp only [List.length_tail, List.length_cons]
      omega
    · cases hstop : endsKey c with
      | true =>
        have heq : c = equalsSign := by simpa [endsKey, hc] using hstop
        rw [List.dropWhile_cons_of_neg (by simp [hstop])] at he
        simp [afterEquals?, heq] at he
      | false =>
        have := (List.dropWhile_suffix (! endsKey ·) (l := tail)).length_le
        simp only [List.dropWhile_cons, hstop, Bool.not_false, if_true, List.length_cons]
        omega

theorem length_lt_of_next? {line rest : Bytes} {token : Token}
    (h : next? line = some (token, rest)) : rest.length < line.length := by
  have hline := (List.dropWhile_suffix Ascii.isSpace (l := line)).length_le
  have hs : (line.dropWhile Ascii.isSpace).head?.all (! Ascii.isSpace ·) := by
    have hhead := List.head?_dropWhile_not Ascii.isSpace line
    cases hc : (line.dropWhile Ascii.isSpace).head? with
    | none => rfl
    | some c =>
      rw [hc] at hhead
      simp [show Ascii.isSpace c = false from hhead]
  simp only [next?] at h
  split at h
  · simp at h
  · rename_i key afterKey hkey
    have hle := length_le_of_symbol? hkey
    split at h
    · rename_i hequals
      simp only [Option.some.injEq, Prod.mk.injEq] at h
      have := length_lt_of_symbol? hs hkey hequals
      rw [← h.2]
      omega
    · rename_i afterSign hequals
      have heq := length_eq_of_afterEquals? hequals
      split at h
      · simp only [Option.some.injEq, Prod.mk.injEq] at h
        rw [← h.2, List.length_nil]
        omega
      · rename_i value afterValue hvalue
        have := length_le_of_symbol? hvalue
        simp only [Option.some.injEq, Prod.mk.injEq] at h
        rw [← h.2]
        omega

/-- All tokens of a command line without terminator. -/
def tokensOf (line : Bytes) : List Token :=
  match _h : next? line with
  | none => []
  | some (token, rest) => token :: tokensOf rest
termination_by line.length
decreasing_by exact length_lt_of_next? _h

/-- The tokens of the command line in a buffer. -/
def tokens (buffer : Bytes) : List Token :=
  tokensOf (Terminated.content buffer)

end EarlyBoot.CommandLine
