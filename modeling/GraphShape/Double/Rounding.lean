/-!
# Binary64 numbers

A finite binary64 number is a whole number below 2^53 times a power of two. Every operation here
takes the exact result as a ratio of whole numbers and rounds it once, to the nearest number and
a tie to the even one, so no arithmetic of the machine is involved.
-/

namespace GraphShape

/-- The finite binary64 number `mantissa * 2 ^ exponent`, or its negative. -/
structure Double where
  negative : Bool
  mantissa : Nat
  exponent : Int
  deriving DecidableEq, Repr

namespace Double

/-- The exponent of the numbers nearest to zero. -/
def minExponent : Int := -1074

/-- The exponent of the greatest numbers. -/
def maxExponent : Int := 971

/-- A ratio with a power of two moved into it. -/
def scaleRatio (num den : Nat) (power : Int) : Nat × Nat :=
  if power < 0 then (num, den * Nat.pow 2 (-power).toNat) else (num * Nat.pow 2 power.toNat, den)

/-- The whole number nearest to a ratio, a tie going to the even one. -/
def nearest (num den : Nat) : Nat :=
  let whole := num / den
  let rest := num % den
  if 2 * rest > den || (2 * rest == den && whole % 2 == 1) then whole + 1 else whole

/-- The greatest `k` with `2 ^ k ≤ num / den`. -/
def floorLog2 (num den : Nat) : Int :=
  let k : Int := (num.log2 : Int) - (den.log2 : Int)
  let (n, d) := scaleRatio num den (-k)
  if d ≤ n then k else k - 1

/-- The number nearest to `num / den`, or none when that is beyond the greatest. -/
def ofRatio? (negative : Bool) (num den : Nat) : Option Double :=
  if num = 0 then some ⟨negative, 0, minExponent⟩
  else
    let exponent := max (floorLog2 num den - 52) minExponent
    let (n, d) := scaleRatio num den (-exponent)
    let mantissa := nearest n d
    let (mantissa, exponent) :=
      if mantissa = Nat.pow 2 53 then (Nat.pow 2 52, exponent + 1) else (mantissa, exponent)
    if exponent > maxExponent then none else some ⟨negative, mantissa, exponent⟩

def zero (negative : Bool) : Double := ⟨negative, 0, minExponent⟩

/-- The absolute value as a ratio. -/
def ratio (d : Double) : Nat × Nat := scaleRatio d.mantissa 1 d.exponent

def isZero (d : Double) : Bool := d.mantissa == 0

def negate (d : Double) : Double := { d with negative := !d.negative }

/-- The order of numbers. Two zeros are equal, whatever their signs. -/
def order (a b : Double) : Ordering :=
  let signed := fun (d : Double) (n : Nat) => if d.negative then -(n : Int) else (n : Int)
  let (an, ad) := a.ratio
  let (bn, bd) := b.ratio
  compare (signed a (an * bd)) (signed b (bn * ad))

def add? (a b : Double) : Option Double :=
  let (an, ad) := a.ratio
  let (bn, bd) := b.ratio
  if a.negative = b.negative then ofRatio? a.negative (an * bd + bn * ad) (ad * bd)
  else if bn * ad ≤ an * bd then ofRatio? a.negative (an * bd - bn * ad) (ad * bd)
  else ofRatio? b.negative (bn * ad - an * bd) (ad * bd)

def mul? (a b : Double) : Option Double :=
  let (an, ad) := a.ratio
  let (bn, bd) := b.ratio
  ofRatio? (a.negative != b.negative) (an * bn) (ad * bd)

/-- The quotient by a number that is not zero. -/
def div? (a b : Double) : Option Double :=
  let (an, ad) := a.ratio
  let (bn, bd) := b.ratio
  ofRatio? (a.negative != b.negative) (an * bd) (ad * bn)

def ofNat? (n : Nat) : Option Double := ofRatio? false n 1

def tenPower? (power : Nat) : Option Double := ofRatio? false (Nat.pow 10 power) 1

/-- The number nearest to `digits * 10 ^ power`. -/
def ofDecimal? (negative : Bool) (digits : Nat) (power : Int) : Option Double :=
  if power < 0 then ofRatio? negative digits (Nat.pow 10 (-power).toNat)
  else ofRatio? negative (digits * Nat.pow 10 power.toNat) 1

end Double

end GraphShape
