/-!
# Digits

Whole numbers in a base, digit by digit. A text without digits is no number, and a letter counts
as a digit in either case.
-/

namespace GraphShape.Text

/-- The value of a digit in a base up to sixteen. -/
def digit? (base : Nat) (ch : Char) : Option Nat :=
  let value :=
    if '0' ≤ ch ∧ ch ≤ '9' then some (ch.toNat - 48)
    else if 'a' ≤ ch ∧ ch ≤ 'f' then some (ch.toNat - 87)
    else if 'A' ≤ ch ∧ ch ≤ 'F' then some (ch.toNat - 55)
    else none
  value.filter (fun v => v < base)

/-- The number that digits stand for, after those already read. -/
def digits? (base : Nat) (start : Nat) : List Char → Option Nat
  | [] => some start
  | ch :: rest =>
    match digit? base ch with
    | some v => digits? base (base * start + v) rest
    | none => none

def natural? (base : Nat) : List Char → Option Nat
  | [] => none
  | text => digits? base 0 text

/-- A number after a plus sign or none, below a limit. -/
def unsigned? (base limit : Nat) : List Char → Option Nat
  | '+' :: text => (natural? base text).filter (fun n => n < limit)
  | text => (natural? base text).filter (fun n => n < limit)

/-- A number after either sign or none, at least the negated limit and below the limit. -/
def signed? (base limit : Nat) : List Char → Option Int
  | '-' :: text => ((natural? base text).filter (fun n => n ≤ limit)).map (fun n => -(n : Int))
  | text => (unsigned? base limit text).map (fun n => (n : Int))

def isDecimalDigit (ch : Char) : Bool := '0' ≤ ch && ch ≤ '9'

end GraphShape.Text
