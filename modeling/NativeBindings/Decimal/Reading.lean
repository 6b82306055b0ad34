namespace NativeBindings.Decimal

/-! # Reading floating point numbers

A number is written with an optional sign, digits with an optional point among
or beside them, and an optional exponent; or it is the word `inf`, `infinity` or
`nan` in any case.  It reads as the double nearest to it.
-/

def natural (digits : List Char) : Nat :=
  digits.foldl (fun value d => value * 10 + (d.toNat - '0'.toNat)) 0

/-- An optional sign: whether it is a minus, and what follows. -/
def signed : List Char → Bool × List Char
  | '-' :: rest => (true, rest)
  | '+' :: rest => (false, rest)
  | rest => (false, rest)

/-- The double nearest to `digits * 10 ^ power`.  Powers beyond reach give
infinity or zero without writing the number out. -/
def nearest (digits : Nat) (power : Int) : Float :=
  if digits = 0 then 0.0
  else if 400 < power then Float.ofScientific 1 false 400
  else if power < -(400 + 4 * (Nat.log2 digits : Int)) then 0.0
  else Float.ofScientific digits (decide (power < 0)) power.natAbs

/-- The exponent after the digits; `none` if something else stands there. -/
def exponent? : List Char → Option Int
  | [] => some 0
  | mark :: rest =>
      if mark = 'e' ∨ mark = 'E' then
        let (negative, digits) := signed rest
        if digits.isEmpty ∨ digits.any (fun c => !c.isDigit) then none
        else some (if negative then -(natural digits : Int) else natural digits)
      else none

def magnitude? (text : List Char) : Option Float :=
  let word := text.map Char.toLower
  if word = ['n', 'a', 'n'] then some (0.0 / 0.0)
  else if word = ['i', 'n', 'f'] ∨ word = ['i', 'n', 'f', 'i', 'n', 'i', 't', 'y'] then
    some (1.0 / 0.0)
  else
    let whole := text.takeWhile Char.isDigit
    let rest := text.dropWhile Char.isDigit
    let (part, rest) := match rest with
      | '.' :: more => (more.takeWhile Char.isDigit, more.dropWhile Char.isDigit)
      | _ => ([], rest)
    if whole.isEmpty ∧ part.isEmpty then none
    else (exponent? rest).map fun power =>
      nearest (natural (whole ++ part)) (power - part.length)

def number? (text : String) : Option Float :=
  let (negative, rest) := signed text.toList
  (magnitude? rest).map fun x => if negative then -x else x

end NativeBindings.Decimal
