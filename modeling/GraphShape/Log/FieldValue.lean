import GraphShape.Double.Parse
import GraphShape.Log.Pattern

/-!
# Values of fields

The value that a filter asks a field for is a truth value, a number or, when it is neither, a
pattern. Values are ordered by their kinds first: truth values, decimals, what is no number, whole
numbers without a sign, those with one, and patterns.
-/

namespace GraphShape.Log

inductive FieldValue where
  | truth (b : Bool)
  | decimal (x : Extended)
  | unsigned (n : Nat)
  | signed (n : Int)
  | pattern (text : String)
  deriving DecidableEq, Repr

namespace FieldValue

/-- The value that a text stands for, or what is wrong with it as a pattern. -/
def ofText (text : String) : Except PatternFault FieldValue :=
  let chars := text.toList
  let whole := Text.unsigned? 10 (Nat.pow 2 64) chars
  let negative := Text.signed? 10 (Nat.pow 2 63) chars
  if text = "true" then .ok (truth true)
  else if text = "false" then .ok (truth false)
  else
    match whole, negative, Extended.ofText? chars with
    | some n, _, _ => .ok (unsigned n)
    | none, some n, _ => .ok (signed n)
    | none, none, some x => .ok (decimal x)
    | none, none, none =>
      match Pattern.fault? text with
      | some fault => .error fault
      | none => .ok (pattern text)

def text : FieldValue → String
  | truth b => if b then "true" else "false"
  | decimal x => x.text
  | unsigned n => toString n
  | signed n => toString n
  | pattern s => s

def rank : FieldValue → Nat
  | truth _ => 0
  | decimal .undefined => 2
  | decimal _ => 1
  | unsigned _ => 3
  | signed _ => 4
  | pattern _ => 5

/-- The order of values, by their kinds and then inside one kind. -/
def order (a b : FieldValue) : Ordering :=
  (compare a.rank b.rank).then
    (match a, b with
      | truth x, truth y => compare x.toNat y.toNat
      | decimal x, decimal y => x.order y
      | unsigned m, unsigned n => compare m n
      | signed m, signed n => compare m n
      | pattern s, pattern t => compare s t
      | _, _ => .eq)

end FieldValue

end GraphShape.Log
