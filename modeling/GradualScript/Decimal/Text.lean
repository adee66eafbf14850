import GradualScript.Decimal.Basic

/-!
# Decimals as texts

A decimal is written with exactly as many digits after the point as its scale says, and with no
point when there are none. Reading takes digits as long as they fit; the first digit of the fraction
that does not fit rounds what was read, half up, and the ones after it do not count.
-/

namespace GradualScript.Decimal

/-- The digits of a number, with zeros in front up to `width` digits. -/
def paddedDigits (width n : Nat) : List Char :=
  let digits := Nat.toDigits 10 n
  List.replicate (width - digits.length) '0' ++ digits

/-- The text of a decimal. -/
def render (d : Decimal) : String :=
  let digits := paddedDigits (d.scale + 1) d.mantissa
  let whole := digits.take (digits.length - d.scale)
  let places := digits.drop (digits.length - d.scale)
  let sign := if d.negative then ['-'] else []
  let point := if d.scale = 0 then [] else ['.']
  String.ofList (sign ++ whole ++ point ++ places)

/-- The number that a digit stands for. -/
def digitValue (c : Char) : Nat := c.toNat - '0'.toNat

/-- Rounds a mantissa by the first digit that is left out. -/
def roundLast (mantissa scale digit : Nat) : Option (Nat × Nat) :=
  if digit < 5 then some (mantissa, scale)
  else if mantissa + 1 < mantissaLimit then some (mantissa + 1, scale)
  else
    match scale with
    | 0 => none
    | scale + 1 => some ((mantissa + 1 + 4) / 10, scale)

/-- Reads a number on top of `mantissa`. Once its point has been read it has a number of places, and
`started` says whether a digit has been read. Separators may stand anywhere behind the first digit.
-/
def readFrom (started : Bool) (places : Option Nat) (mantissa : Nat) :
    List Char → Option (Nat × Nat)
  | [] => if started then some (mantissa, places.getD 0) else none
  | c :: rest =>
    if c.isDigit then
      let next := mantissa * 10 + digitValue c
      match places with
      | none => if next < mantissaLimit then readFrom true none next rest else none
      | some scale =>
        if next < mantissaLimit ∧ scale < maxScale then readFrom true (some (scale + 1)) next rest
        else roundLast mantissa scale (digitValue c)
    else if c = '.' ∧ places = none then readFrom started (some 0) mantissa rest
    else if c = '_' ∧ started then readFrom started places mantissa rest
    else none

/-- Reads a number without a sign and gives it one. Zero has no sign. -/
def ofUnsigned? (negative : Bool) (text : List Char) : Option Decimal := do
  let (mantissa, scale) ← readFrom false none 0 text
  ofParts? (negative && mantissa ≠ 0) mantissa scale

/-- Reads a decimal, which may start with a sign. -/
def ofText? : List Char → Option Decimal
  | '-' :: text => ofUnsigned? true text
  | '+' :: text => ofUnsigned? false text
  | text => ofUnsigned? false text

end GradualScript.Decimal
