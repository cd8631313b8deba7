import StateOwnership.Text.Basic
import StateOwnership.Decimal.Binary64

/-!
# Shortest decimals

A finite number is written with the fewest digits that read back to it; of two candidates with
that many digits the nearer is taken, and the even one if both are equally near. All comparisons
are exact, between natural numbers.
-/

namespace StateOwnership.Decimal

/-- The decimal `digits * 10 ^ exponent`. -/
structure Scientific where
  digits : Nat
  exponent : Int
  deriving DecidableEq, Repr

/-- Compares `a * 10 ^ i` with `n * 2 ^ j`. -/
def compareScaled (a : Nat) (i : Int) (n : Nat) (j : Int) : Ordering :=
  compare (a * tenPow i.toNat * twoPow (-j).toNat) (n * twoPow j.toNat * tenPow (-i).toNat)

/-- Whether a decimal lies among the reals that round to `coefficient * 2 ^ exponent`. The gap to
the number below is half as wide at a power of two, and the ends belong to the interval exactly
if the coefficient is even. -/
def readsBack (coefficient : Nat) (exponent : Int) (d : Scientific) : Bool :=
  let narrow := coefficient = twoPow 52 && Binary64.leastExponent < exponent
  let low := 4 * coefficient - (if narrow then 1 else 2)
  let high := 4 * coefficient + 2
  let closed := coefficient % 2 = 0
  let atLow := compareScaled d.digits d.exponent low (exponent - 2)
  let atHigh := compareScaled d.digits d.exponent high (exponent - 2)
  (atLow = .gt || (closed && atLow = .eq)) && (atHigh = .lt || (closed && atHigh = .eq))

/-- The least `k` with `coefficient * 2 ^ exponent < 10 ^ k`, near the estimate that the binary
logarithm gives. -/
def scale (coefficient : Nat) (exponent : Int) : Int :=
  let estimate := Int.fdiv (((Nat.log2 coefficient : Int) + exponent) * 30103) 100000
  ([estimate - 1, estimate, estimate + 1, estimate + 2].find? fun k =>
    compareScaled 1 k coefficient exponent = .gt).getD (estimate + 3)

/-- The best decimal on the grid `10 ^ e` that reads back, if there is one. -/
def onGrid (coefficient : Nat) (exponent e : Int) : Option Scientific :=
  let below := coefficient * twoPow exponent.toNat * tenPow (-e).toNat /
    (twoPow (-exponent).toNat * tenPow e.toNat)
  let lower : Scientific := ⟨below, e⟩
  let upper : Scientific := ⟨below + 1, e⟩
  match readsBack coefficient exponent lower, readsBack coefficient exponent upper with
  | true, true =>
    match compareScaled (2 * below + 1) e (2 * coefficient) exponent with
    | .gt => some lower
    | .lt => some upper
    | .eq => some (if below % 2 = 0 then lower else upper)
  | true, false => some lower
  | false, true => some upper
  | false, false => none

/-- Moves the zeros at the end of the digits, `fuel` at most, into the exponent. -/
def stripZeros : (fuel : Nat) → Scientific → Scientific
  | 0, d => d
  | fuel + 1, d =>
    if d.digits ≠ 0 ∧ d.digits % 10 = 0 then stripZeros fuel ⟨d.digits / 10, d.exponent + 1⟩ else d

/-- The exact decimal value of `coefficient * 2 ^ exponent`. -/
def exact (coefficient : Nat) (exponent : Int) : Scientific :=
  ⟨coefficient * twoPow exponent.toNat * Nat.pow 5 (-exponent).toNat, min exponent 0⟩

/-- The shortest decimal that reads back to a positive number. -/
def shortest (coefficient : Nat) (exponent : Int) : Scientific :=
  let k := scale coefficient exponent
  -- Seventeen digits tell any two numbers apart, so the exact value is never needed.
  let found := (List.range 17).findSome? fun (n : Nat) =>
    onGrid coefficient exponent (k - ((n : Int) + 1))
  stripZeros 17 (found.getD (exact coefficient exponent))

/-- The text of a decimal: positional while the leading digit stands for a power of ten from -4 to
15, with at least one digit on either side of the point, and otherwise with one digit in front of
the point and an exponent of at least two digits with a sign. -/
def layout (d : Scientific) : Text :=
  let digits := Text.ofNat d.digits
  let point : Int := d.exponent + digits.length
  if -4 < point && point ≤ 16 then
    if point ≤ 0 then "0." ++ Text.zeros (-point).toNat ++ digits
    else if (digits.length : Int) ≤ point then
      digits ++ Text.zeros (point - digits.length).toNat ++ ".0"
    else
      let whole : Text := digits.take point.toNat
      whole ++ "." ++ digits.drop point.toNat
  else
    let first : Text := digits.take 1
    let others : Text := digits.drop 1
    let fraction : Text := if others = [] then [] else "." ++ others
    let power := point - 1
    let mark : Text := if power < 0 then "e-" else "e+"
    first ++ fraction ++ mark ++ Text.decimalPadded 2 power.natAbs

end StateOwnership.Decimal

namespace StateOwnership.Binary64

def magnitude (coefficient : Nat) (exponent : Int) : Text :=
  if coefficient = 0 then "0.0" else Decimal.layout (Decimal.shortest coefficient exponent)

def toText : Binary64 → Text
  | .finite negative coefficient exponent =>
    (if negative then ([0x2D] : Text) else []) ++ magnitude coefficient exponent
  | .infinity negative => if negative then "-inf" else "inf"
  | .notANumber => "nan"

end StateOwnership.Binary64
