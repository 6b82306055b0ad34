namespace NativeBindings.Decimal

/-! # The shortest decimal of a binary number

A binary number stands for every real that rounds to it.  Its shortest decimal
is the one with the fewest digits among those reals, and of several such the one
nearest to the number itself.  All work is in natural numbers, on a fraction
`numerator / denominator`.
-/

/-- A positive binary number `mantissa * 2 ^ exponent`.  `atBinade` says that the
next smaller number is only half as far away as the next larger one. -/
structure Binary where
  mantissa : Nat
  exponent : Int
  atBinade : Bool

/-- The decimal number `digits * 10 ^ power`. -/
structure Scientific where
  digits : Nat
  power : Int

/-- A power with a natural exponent; it is 1 below that. -/
def raised (base : Nat) (exponent : Int) : Nat := Nat.pow base exponent.toNat

/-- Number of decimal digits; zero has none. -/
def digitCount (n : Nat) : Nat := if n = 0 then 0 else (Nat.toDigits 10 n).length

/-- The power of ten of the leading digit of a positive fraction. -/
def leadingPower (numerator denominator : Nat) : Int :=
  if denominator ≤ numerator then (digitCount (numerator / denominator) : Int) - 1
  else -(digitCount ((denominator + numerator - 1) / numerator - 1) : Int)

/-- Is `candidate * 10 ^ power` among the reals that round to the number?  The
number is `4 * mantissa` of units `unit`, its reach two units upwards and two or
one downwards; both ends belong to it exactly when the mantissa is even. -/
def rounds (number : Binary) (candidate : Nat) (power : Int) : Bool :=
  -- both sides of every comparison are scaled to naturals
  let twos : Int := number.exponent - 2
  let value := candidate * raised 10 power * raised 2 (-twos)
  let scale := raised 10 (-power) * raised 2 twos
  let low := (4 * number.mantissa - if number.atBinade then 1 else 2) * scale
  let high := (4 * number.mantissa + 2) * scale
  if number.mantissa % 2 = 0 then decide (low ≤ value ∧ value ≤ high)
  else decide (low < value ∧ value < high)

/-- The best decimal with `count` digits, if one rounds to the number. -/
def withDigits (number : Binary) (count : Nat) : Option Scientific :=
  let numerator := number.mantissa * raised 2 number.exponent
  let denominator := raised 2 (-number.exponent)
  let leading := leadingPower numerator denominator
  let power := leading - (count - 1 : Nat)
  let top := numerator * raised 10 (-power)
  let bottom := denominator * raised 10 power
  let below := top / bottom
  let nearerAbove := decide (bottom ≤ 2 * (top % bottom))
  let choose (digits : Nat) : Option Scientific :=
    if 0 < digits ∧ rounds number digits power then some ⟨digits, power⟩ else none
  if nearerAbove then (choose (below + 1)).orElse fun _ => choose below
  else (choose below).orElse fun _ => choose (below + 1)

/-- The shortest decimal of a number.  Seventeen digits always suffice. -/
def shortest (number : Binary) : Scientific :=
  ((List.range 17).findSome? fun n => withDigits number (n + 1)).getD ⟨0, 0⟩

end NativeBindings.Decimal
