/-!
# Whole numbers

Whole numbers are signed and have 64 bits. An operation gives the exact result, or nothing when that
result needs more bits.
-/

namespace GradualScript.Integer

/-- The whole number `n`, when 64 bits hold it. -/
def ofInt? (n : Int) : Option Int64 :=
  if h : Int64.minValue.toInt ≤ n ∧ n ≤ Int64.maxValue.toInt then some (Int64.ofIntLE n h.1 h.2)
  else none

/-- The sum. -/
def add? (left right : Int64) : Option Int64 := ofInt? (left.toInt + right.toInt)

/-- The difference. -/
def sub? (left right : Int64) : Option Int64 := ofInt? (left.toInt - right.toInt)

/-- The product. -/
def mul? (left right : Int64) : Option Int64 := ofInt? (left.toInt * right.toInt)

/-- The first number that needs more than 32 bits, and so is no exponent. -/
def exponentLimit : Nat := 4294967296

/-- The product of `result` and a power. The binary digits of the exponent, the lowest first, say
which of the repeated squares of the base are taken; the last one is not squared again. -/
def mulPow? (result base : Int64) (exponent : Nat) : Option Int64 :=
  if exponent = 0 then some result
  else if exponent = 1 then mul? result base
  else do
    let result ← if exponent % 2 = 1 then mul? result base else some result
    let square ← mul? base base
    mulPow? result square (exponent / 2)
termination_by exponent

/-- The power. -/
def pow? (base : Int64) (exponent : Nat) : Option Int64 := mulPow? 1 base exponent

/-- Whether a text is made of digits, and of one at least. -/
def isNumeral (text : List Char) : Bool := text ≠ [] && text.all Char.isDigit

/-- Reads digits, after an optional sign, as a whole number. -/
def ofText? : List Char → Option Int64
  | '-' :: digits =>
    if isNumeral digits then ofInt? (-(Nat.ofDigitChars 10 digits 0 : Int)) else none
  | '+' :: digits => if isNumeral digits then ofInt? (Nat.ofDigitChars 10 digits 0) else none
  | digits => if isNumeral digits then ofInt? (Nat.ofDigitChars 10 digits 0) else none

end GradualScript.Integer
