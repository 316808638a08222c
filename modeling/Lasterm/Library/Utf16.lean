import Mathlib.Data.Bool.AllAny
import Mathlib.Data.List.Basic
import Mathlib.Data.Nat.Notation

/-!
# Texts of UTF-16 code units

What a string of JavaScript is: a list of 16-bit units, whatever they stand for. Lengths and places
count units.
-/

namespace Utf16

abbrev Units := List UInt16

/-- The unit of an ASCII character. -/
def unit (c : Char) : UInt16 := UInt16.ofNat c.toNat

/-- The units of an ASCII text. -/
def ascii (s : String) : Units := s.toList.map unit

/-- `[a-zA-Z]`. -/
def isLetter (u : UInt16) : Bool :=
  (unit 'a' ≤ u && u ≤ unit 'z') || (unit 'A' ≤ u && u ≤ unit 'Z')

/-- `[0-9]`. -/
def isDigit (u : UInt16) : Bool := unit '0' ≤ u && u ≤ unit '9'

end Utf16
