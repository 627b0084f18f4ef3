import Beskar7Inspector.Lib.Text

namespace Beskar7Inspector.Lib.Hexadecimal

open Lib.Text

/-- The value of a hex digit, in either case. -/
def hexDigitValue (c : Char) : Option Nat :=
  if isAsciiDigit c then some (c.toNat - 48)
  else if 'a' ≤ c ∧ c ≤ 'f' then some (c.toNat - 87)
  else if 'A' ≤ c ∧ c ≤ 'F' then some (c.toNat - 55)
  else none

theorem hexDigitValue_digitChar {n : Nat} (h : n < 16) : hexDigitValue (Nat.digitChar n) = some n := by
  have hall : ∀ n < 16, hexDigitValue (Nat.digitChar n) = some n := by decide
  exact hall n h

end Beskar7Inspector.Lib.Hexadecimal
