import EarlyBoot.Quoted

/-!
Numerals in reports.
-/

namespace EarlyBoot.Numeral

/-- A numeral with its type, as a report shows it. -/
def shown (numeral : Bytes) : String :=
  "NumText(" ++ Quoted.quote (Bytes.glyphs numeral) ++ ")"

end EarlyBoot.Numeral
