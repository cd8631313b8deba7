/-!
# Binary floating-point numbers

A number of the 64-bit binary format as data: a sign, a coefficient and a power of two. Reading a
decimal gives the nearest such number, the one with an even coefficient if two are equally near.
-/

namespace StateOwnership

def twoPow (n : Nat) : Nat := Nat.pow 2 n

def tenPow (n : Nat) : Nat := Nat.pow 10 n

/-- A number of the 64-bit binary format. A finite one is `coefficient * 2 ^ exponent`; its
coefficient is below `2 ^ 53`, and at least `2 ^ 52` unless the exponent is the least one. -/
inductive Binary64 where
  | finite (negative : Bool) (coefficient : Nat) (exponent : Int)
  | infinity (negative : Bool)
  | notANumber
  deriving DecidableEq, Repr

namespace Binary64

def leastExponent : Int := -1074

def greatestExponent : Int := 971

/-- The natural number nearest to `n / d`, an even one if two are equally near. -/
def roundDiv (n d : Nat) : Nat :=
  let quotient := n / d
  let twice := 2 * (n % d)
  if twice < d then quotient
  else if d < twice then quotient + 1
  else quotient + quotient % 2

/-- The number nearest to the positive quotient `n / d`. The binary logarithms of both fix the
exponent up to one. -/
def ofQuotient (negative : Bool) (n d : Nat) : Binary64 :=
  let estimate : Int := (Nat.log2 n : Int) - (Nat.log2 d : Int) - 52
  let short := n * twoPow (-estimate).toNat / (d * twoPow estimate.toNat) < twoPow 52
  let exponent := max (if short then estimate - 1 else estimate) leastExponent
  let coefficient := roundDiv (n * twoPow (-exponent).toNat) (d * twoPow exponent.toNat)
  -- Rounding up can reach the next power of two, which moves the exponent.
  if coefficient < twoPow 53 then
    if exponent ≤ greatestExponent then .finite negative coefficient exponent
    else .infinity negative
  else if exponent + 1 ≤ greatestExponent then .finite negative (twoPow 52) (exponent + 1)
  else .infinity negative

/-- The number nearest to `digits * 10 ^ exponent`. Magnitudes far beyond either end of the format
are told from the number of digits alone. -/
def ofDecimal (negative : Bool) (digits : Nat) (exponent : Int) : Binary64 :=
  if digits = 0 then .finite negative 0 leastExponent
  else
    let magnitude := (Nat.log2 digits : Int) / 4 + exponent
    let most := (Nat.log2 digits : Int) / 3 + 1 + exponent
    if 400 < magnitude then .infinity negative
    else if most < -400 then .finite negative 0 leastExponent
    else if 0 ≤ exponent then ofQuotient negative (digits * tenPow exponent.toNat) 1
    else ofQuotient negative digits (tenPow (-exponent).toNat)

def isNat (x : Binary64) (n : Nat) : Bool :=
  match x with
  | .finite negative coefficient exponent =>
    (!negative || coefficient = 0) &&
      coefficient * twoPow exponent.toNat = n * twoPow (-exponent).toNat
  | _ => false

def isBelowZero : Binary64 → Bool
  | .finite negative coefficient _ => negative && coefficient ≠ 0
  | .infinity negative => negative
  | .notANumber => false

/-- Whether the number is zero, of either sign. -/
def isZero (x : Binary64) : Bool :=
  x.isNat 0

end Binary64
end StateOwnership
