import NativeBindings.Decimal.Shortest

namespace NativeBindings.Decimal

/-! # Floating point literals

A literal is the shortest decimal that reads back as the number.  It always
shows that it is no integer: by a point with at least one digit on either side,
or by an exponent.
-/

/-- Where positional notation begins and ends, as powers of ten of the leading
digit. -/
structure Positional where
  first : Int
  last : Int

/-- Literals are positional from 10⁻⁴ to just below 10¹⁶. -/
def literalPositional : Positional := ⟨-4, 15⟩

structure Fields where
  negative : Bool
  biased : Nat
  fraction : Nat

/-- How many fractions there are for one sign and exponent. -/
def fractionCount : Nat := 0x10000000000000

def fields (x : Float) : Fields :=
  let bits := x.toBits.toNat
  ⟨decide (UInt64.size ≤ 2 * bits), bits / fractionCount % 0x800, bits % fractionCount⟩

def binary (parts : Fields) : Binary :=
  if parts.biased = 0 then ⟨parts.fraction, -1074, false⟩
  else
    ⟨parts.fraction + fractionCount, (parts.biased : Int) - 1075,
      decide (parts.fraction = 0 ∧ 1 < parts.biased)⟩

/-- Digits with a point after the first `whole` of them, padded with zeros so
that both sides have a digit. -/
def pointed (digits : List Char) (whole : Int) : List Char :=
  if whole ≤ 0 then
    ['0', '.'] ++ List.replicate (-whole).toNat '0' ++ digits
  else
    let count := whole.toNat
    let front := digits.take count
    let back := digits.drop count
    front ++ List.replicate (count - front.length) '0' ++
      ('.' :: if back.isEmpty then ['0'] else back)

/-- Digits with a point after the first, if there are more, and an exponent. -/
def scientific (digits : List Char) (exponent : Int) : List Char :=
  let mantissa := match digits with
    | [] => []
    | [d] => [d]
    | d :: more => d :: '.' :: more
  mantissa ++ 'e' :: (toString exponent).toList

def significant (digits : List Char) : List Char :=
  (digits.reverse.dropWhile (· = '0')).reverse

def literal (x : Float) : String :=
  let parts := fields x
  let sign := if parts.negative then ['-'] else []
  if parts.biased = 2047 then
    if parts.fraction = 0 then String.ofList (sign ++ ['i', 'n', 'f']) else "NaN"
  else if parts.biased = 0 ∧ parts.fraction = 0 then String.ofList (sign ++ ['0', '.', '0'])
  else
    let decimal := shortest (binary parts)
    let digits := Nat.toDigits 10 decimal.digits
    let exponent := decimal.power + digits.length - 1
    let digits := significant digits
    let body :=
      if literalPositional.first ≤ exponent ∧ exponent ≤ literalPositional.last then
        pointed digits (exponent + 1)
      else scientific digits exponent
    String.ofList (sign ++ body)

end NativeBindings.Decimal
