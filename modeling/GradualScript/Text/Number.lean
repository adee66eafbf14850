/-!
# Numbers in texts

Natural numbers and integers are written in base ten without leading zeros, a negative one after a
minus sign.
-/

namespace GradualScript.Text

/-- The decimal digits of a natural number. -/
def natural (n : Nat) : String := String.ofList (Nat.toDigits 10 n)

/-- The decimal digits of an integer, after a minus sign when it is negative. -/
def integer (n : Int) : String :=
  if n < 0 then "-" ++ natural n.natAbs else natural n.natAbs

end GradualScript.Text
