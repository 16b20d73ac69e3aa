import GraphShape.Text.Digits

/-!
# Log levels

Five levels from the gravest to the most detailed. A level is named in any case or numbered from
one to five.
-/

namespace GraphShape.Log

inductive Level where
  | error
  | warn
  | info
  | debug
  | trace
  deriving DecidableEq, Repr

namespace Level

def all : List Level := [error, warn, info, debug, trace]

/-- How much detail a level lets through, from one for errors only to five. -/
def detail : Level → Nat
  | error => 1
  | warn => 2
  | info => 3
  | debug => 4
  | trace => 5

def name : Level → String
  | error => "error"
  | warn => "warn"
  | info => "info"
  | debug => "debug"
  | trace => "trace"

def capitals : Level → String
  | error => "ERROR"
  | warn => "WARN"
  | info => "INFO"
  | debug => "DEBUG"
  | trace => "TRACE"

end Level

def smallLetter (ch : Char) : Char :=
  if 'A' ≤ ch ∧ ch ≤ 'Z' then Char.ofNat (ch.toNat + 32) else ch

/-- Whether two texts differ at most in the case of Latin letters. -/
def sameLetters (a b : String) : Bool := a.toList.map smallLetter == b.toList.map smallLetter

def Level.ofText? (text : String) : Option Level :=
  match Text.unsigned? 10 (Nat.pow 2 64) text.toList with
  | some n => Level.all.find? (fun level => level.detail = n)
  | none => Level.all.find? (fun level => sameLetters level.name text)

def Level.refusal : String :=
  "error parsing level: expected one of \"error\", \"warn\", \"info\", \"debug\", \"trace\", " ++
    "or a number 1-5"

end GraphShape.Log
