import EarlyBoot.Fault
import EarlyBoot.Numeral.Basic

/-!
The wording of faults.
-/

namespace EarlyBoot.Fault

def message : Fault → String
  | overflow => "arithmetic overflow"
  | outOfBounds => "index out of bounds"
  | regionOutOfBounds => "region out of bounds"
  | alignmentNotPowerOfTwo => "alignment must be power of two"
  | offScreen offset => "VGA offset " ++ Numeral.decimalText offset ++ " out of bounds"
  | unmapped address =>
    "[DirectMapping::phys_to_virt] physical address PHYS_"
      ++ Bytes.glyphs (Numeral.prefixedHex 16 address) ++ " out of bounds"

end EarlyBoot.Fault
