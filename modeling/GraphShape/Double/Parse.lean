import GraphShape.Double.Shortest
import GraphShape.Text.Digits

/-!
# Decimals as text

A decimal has digits with or without a point among them, a sign before and an exponent behind.
What is beyond the greatest binary64 number is infinite.
-/

namespace GraphShape

/-- A binary64 number or one of the values beside the numbers. -/
inductive Extended where
  | finite (d : Double)
  | infinite (negative : Bool)
  | undefined
  deriving DecidableEq, Repr

namespace Extended

def exponent? : List Char → Option Int
  | '+' :: digits => (Text.natural? 10 digits).map (fun n => (n : Int))
  | '-' :: digits => (Text.natural? 10 digits).map (fun n => -(n : Int))
  | digits => (Text.natural? 10 digits).map (fun n => (n : Int))

/-- The greatest power of ten that has to be told from greater ones. -/
def farPower : Int := 400

/-- The number of the digits before and after a point, with a power of ten. The power is cut off
where every number is either too great or zero. -/
def ofDigits (negative : Bool) (whole fraction : List Char) (power : Int) : Option Extended := do
  let digits ← Text.digits? 10 0 (whole ++ fraction)
  if digits = 0 then some (.finite (Double.zero negative))
  else
    let count : Int := (Nat.toDigits 10 digits).length
    let last := power - (fraction.length : Int)
    if last + count > farPower then some (.infinite negative)
    else if last + count < -farPower then some (.finite (Double.zero negative))
    else
      match Double.ofDecimal? negative digits last with
      | some d => some (.finite d)
      | none => some (.infinite negative)

def ofUnsigned? (negative : Bool) (text : List Char) : Option Extended :=
  let whole := text.takeWhile Text.isDecimalDigit
  let rest := text.dropWhile Text.isDecimalDigit
  let (fraction, rest) := match rest with
    | '.' :: more =>
      (more.takeWhile Text.isDecimalDigit, more.dropWhile Text.isDecimalDigit)
    | _ => ([], rest)
  if whole.isEmpty && fraction.isEmpty then none
  else
    match rest with
    | [] => ofDigits negative whole fraction 0
    | ch :: digits =>
      if ch = 'e' || ch = 'E' then (exponent? digits).bind (ofDigits negative whole fraction)
      else none

/-- A text without its sign, and whether that is a minus. -/
def splitSign : List Char → Bool × List Char
  | '-' :: text => (true, text)
  | '+' :: text => (false, text)
  | text => (false, text)

def ofDecimal? (text : List Char) : Option Extended :=
  let (negative, text) := splitSign text
  ofUnsigned? negative text

/-- The value of a decimal or of a word for what is beside the numbers, in any case. -/
def ofText? (text : List Char) : Option Extended :=
  let (negative, word) := splitSign text
  let word := String.ofList (word.map Char.toLower)
  if word = "inf" || word = "infinity" then some (infinite negative)
  else if word = "nan" then some undefined
  else ofDecimal? text

/-- The order of what is a number or infinite. Two zeros are equal, whatever their signs. -/
def order : Extended → Extended → Ordering
  | finite a, finite b => a.order b
  | infinite x, infinite y => compare y.toNat x.toNat
  | finite _, infinite negative => if negative then .gt else .lt
  | infinite negative, finite _ => if negative then .lt else .gt
  | _, _ => .eq

/-- Every digit is written out, and a whole number has no point. -/
def text : Extended → String
  | finite d => String.ofList (d.format ⟨none, "", .up⟩)
  | infinite false => "inf"
  | infinite true => "-inf"
  | undefined => "NaN"

end Extended

end GraphShape
