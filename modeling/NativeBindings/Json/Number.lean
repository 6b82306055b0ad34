import NativeBindings.Json.Source

namespace NativeBindings.Json

/-! # Reading numbers

Of the digits of a number those count that fit 64 bits; they make a significand,
and the place of the point and the exponent make a power of ten.  The double is
the significand, as a double, multiplied or divided by that power, itself a
double.  It need not be the double nearest to what is written.
-/

def maxSignificand : Nat := UInt64.size - 1

def digitValue (d : Char) : Nat := d.toNat - '0'.toNat

/-- The digits before the point: the significand, and how many digits no longer
fitted. -/
def wholePart (digits : List Char) : Nat × Nat :=
  digits.foldl (fun (significand, dropped) d =>
    let next := significand * 10 + digitValue d
    if dropped = 0 ∧ next ≤ maxSignificand then (next, 0) else (significand, dropped + 1)) (0, 0)

/-- Takes the digits after the point into the significand until one does not fit;
also gives the number of those taken. -/
def fractionPart (significand : Nat) : List Char → Nat × Nat
  | [] => (significand, 0)
  | d :: rest =>
      let next := significand * 10 + digitValue d
      if next ≤ maxSignificand then
        let (result, count) := fractionPart next rest
        (result, count + 1)
      else (significand, 0)

/-- A power of ten up to 10³⁰⁸ as a double. -/
def powerOfTen (power : Nat) : Float := Float.ofScientific 1 false power

/-- `significand * 10 ^ power`; there is none beyond the doubles. -/
def scaled (significand : Nat) (power : Int) : Option Float :=
  let x := (UInt64.ofNat significand).toFloat
  if significand = 0 then some 0.0
  else if 0 ≤ power then
    if 308 < power then none
    else
      let result := x * powerOfTen power.toNat
      if result.isInf then none else some result
  else if -308 ≤ power then some (x / powerOfTen (-power).toNat)
  else if -616 ≤ power then some (x / powerOfTen 308 / powerOfTen (-power - 308).toNat)
  else some 0.0

/-- The number with the given parts.  An integer that does not fit its 64 bits is
a double, and so is minus zero. -/
def assemble (negative : Bool) (whole : List Char) (fraction : Option (List Char))
    (exponent : Option Int) : Except Fault Number :=
  let (significand, dropped) := wholePart whole
  let double (significand : Nat) (power : Int) : Except Fault Number :=
    match scaled significand power with
    | some x => .ok (.float (if negative then -x else x))
    | none => .error .malformed
  match fraction, exponent with
  | none, none =>
      if dropped = 0 then
        if !negative then .ok (.integer significand)
        else if 0 < significand ∧ Int64.minValue.toInt ≤ -(significand : Int) then
          .ok (.integer (-significand))
        else double significand 0
      else double significand dropped
  | _, _ =>
      let (significand, taken) := fractionPart significand (fraction.getD [])
      double significand ((dropped : Int) - taken + exponent.getD 0)

/-- A number that the text breaks off or goes on with something else.  A text
that ends within a number is cut short for a reader of the number, and wrong for
a reader that steps over it. -/
def unfinished (rest : List Char) : Scalar Number × List Char :=
  (⟨.error (if rest.isEmpty then .truncated else .malformed), some .malformed⟩, rest)

def scanExponent (text : List Char) : Option Int × List Char :=
  let (negative, rest) := match text with
    | '+' :: rest => (false, rest)
    | '-' :: rest => (true, rest)
    | rest => (false, rest)
  let digits := rest.takeWhile Char.isDigit
  let rest := rest.dropWhile Char.isDigit
  if digits.isEmpty then (none, rest)
  else
    let value : Nat := digits.foldl (fun value d => value * 10 + digitValue d) 0
    (some (if negative then -(value : Int) else value), rest)

/-- Reads a number whose sign has been read, and what follows it. -/
def scanNumber (negative : Bool) (text : List Char) : Scalar Number × List Char :=
  let whole := text.takeWhile Char.isDigit
  let rest := text.dropWhile Char.isDigit
  if whole.isEmpty then unfinished rest
  else if whole.head? = some '0' ∧ 1 < whole.length then
    (⟨.error .malformed, some .malformed⟩, rest)
  else
    let point : Option (List Char) × List Char := match rest with
      | '.' :: more => (some (more.takeWhile Char.isDigit), more.dropWhile Char.isDigit)
      | _ => (none, rest)
    let (fraction, rest) := point
    if fraction = some [] then unfinished rest
    else
      match rest with
      | mark :: more =>
          if mark = 'e' ∨ mark = 'E' then
            match scanExponent more with
            | (some exponent, rest) =>
                (⟨assemble negative whole fraction (some exponent), none⟩, rest)
            | (none, rest) => unfinished rest
          else (⟨assemble negative whole fraction none, none⟩, rest)
      | [] => (⟨assemble negative whole fraction none, none⟩, rest)

end NativeBindings.Json
