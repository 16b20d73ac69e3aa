import GraphShape.Double.Rounding

/-!
# The shortest decimal of a binary64 number

The fewest digits that round back to the number, and of those the nearest. For each count of
digits only the two decimals next to the number can do, so they are the only ones tried. Seventeen
digits always do. When both are equally near, the layout says which one it takes.
-/

namespace GraphShape.Double

/-- The decimal `digits * 10 ^ power`. -/
structure Decimal where
  digits : Nat
  power : Int
  deriving DecidableEq, Repr

inductive Tie where
  | even
  | up
  deriving DecidableEq, Repr

structure Layout where
  /-- The places of the point, counted from before the first digit, that are written without an
  exponent. None when all are. -/
  positional : Option (Int × Int)
  /-- Stands after a whole number. -/
  whole : String
  tie : Tie
  deriving Repr

def ratioLe (a b : Nat × Nat) : Bool := a.1 * b.2 ≤ b.1 * a.2

def ratioLt (a b : Nat × Nat) : Bool := a.1 * b.2 < b.1 * a.2

def Decimal.ratio (d : Decimal) : Nat × Nat :=
  if d.power < 0 then (d.digits, Nat.pow 10 (-d.power).toNat)
  else (d.digits * Nat.pow 10 d.power.toNat, 1)

/-- The least and the greatest real that may round to a positive number. -/
def bounds (d : Double) : (Nat × Nat) × (Nat × Nat) :=
  let low :=
    if d.mantissa = Nat.pow 2 52 ∧ d.exponent > minExponent then
      scaleRatio (4 * d.mantissa - 1) 1 (d.exponent - 2)
    else scaleRatio (2 * d.mantissa - 1) 1 (d.exponent - 1)
  (low, scaleRatio (2 * d.mantissa + 1) 1 (d.exponent - 1))

/-- Whether a decimal rounds to a positive number. The ends of the interval do when the mantissa
is even. -/
def roundsTo (d : Double) (decimal : Decimal) : Bool :=
  let (low, high) := d.bounds
  let r := decimal.ratio
  if d.mantissa % 2 = 0 then ratioLe low r && ratioLe r high
  else ratioLt low r && ratioLt r high

/-- The greatest `k` with `10 ^ k ≤ num / den`. -/
def floorLog10 (num den : Nat) : Int :=
  let k : Int := ((Nat.toDigits 10 num).length : Int) - ((Nat.toDigits 10 den).length : Int)
  let power : Nat × Nat := if k < 0 then (1, Nat.pow 10 (-k).toNat) else (Nat.pow 10 k.toNat, 1)
  if ratioLe power (num, den) then k else k - 1

/-- The decimal of a given last place just below a ratio. -/
def below (r : Nat × Nat) (power : Int) : Decimal :=
  if power < 0 then ⟨r.1 * Nat.pow 10 (-power).toNat / r.2, power⟩
  else ⟨r.1 / (r.2 * Nat.pow 10 power.toNat), power⟩

/-- The nearer to a ratio of a decimal below it and the one just above. -/
def nearer (tie : Tie) (r : Nat × Nat) (low high : Decimal) : Decimal :=
  let l := low.ratio
  let h := high.ratio
  -- Twice the ratio against the sum of the two.
  let twice := (2 * r.1, r.2)
  let sum := (l.1 * h.2 + h.1 * l.2, l.2 * h.2)
  if ratioLt twice sum then low
  else if ratioLt sum twice then high
  else if tie = .even && low.digits % 2 = 0 then low else high

/-- The best decimal with a last place, when one rounds to the number. -/
def tryPlace (tie : Tie) (d : Double) (power : Int) : Option Decimal :=
  let low := below d.ratio power
  let high : Decimal := ⟨low.digits + 1, power⟩
  match d.roundsTo low, d.roundsTo high with
  | true, true => some (nearer tie d.ratio low high)
  | true, false => some low
  | false, true => some high
  | false, false => none

/-- Moves zeros from the end of the digits into the power. -/
def Decimal.trim (d : Decimal) : Nat → Decimal
  | 0 => d
  | n + 1 =>
    if d.digits ≠ 0 ∧ d.digits % 10 = 0 then Decimal.trim ⟨d.digits / 10, d.power + 1⟩ n
    else d

/-- The shortest decimal that rounds back to the number. -/
def shortest (tie : Tie) (d : Double) : Decimal :=
  if d.mantissa = 0 then ⟨0, 0⟩
  else
    let top := floorLog10 d.ratio.1 d.ratio.2
    let tried := (List.range 17).findSome? (fun (count : Nat) =>
      d.tryPlace tie (top - (count : Int)))
    match tried with
    | some decimal => decimal.trim 20
    | none => below d.ratio (top - 16)

/-- The text of a decimal's digits with a point after so many of them. -/
def pointed (digits : List Char) (point : Int) (whole : String) : List Char :=
  let count : Int := digits.length
  if point ≤ 0 then '0' :: '.' :: (List.replicate (-point).toNat '0' ++ digits)
  else if count ≤ point then digits ++ List.replicate (point - count).toNat '0' ++ whole.toList
  else digits.take point.toNat ++ '.' :: digits.drop point.toNat

/-- The text with an exponent, its sign always written. -/
def scientific (digits : List Char) (point : Int) : List Char :=
  let exponent := point - 1
  let sign := if exponent < 0 then '-' else '+'
  let fraction := match digits.drop 1 with
    | [] => []
    | more => '.' :: more
  digits.take 1 ++ fraction ++ 'e' :: sign :: Nat.toDigits 10 exponent.natAbs

def format (layout : Layout) (d : Double) : List Char :=
  let sign := if d.negative then ['-'] else []
  if d.mantissa = 0 then sign ++ '0' :: layout.whole.toList
  else
    let decimal := d.shortest layout.tie
    let digits := Nat.toDigits 10 decimal.digits
    let point := (digits.length : Int) + decimal.power
    let positional := match layout.positional with
      | none => true
      | some (least, greatest) => least ≤ point && point ≤ greatest
    sign ++ (if positional then pointed digits point layout.whole else scientific digits point)

end GraphShape.Double
