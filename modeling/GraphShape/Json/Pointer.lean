import GraphShape.Json.Basic
import GraphShape.Text.Digits

/-!
# JSON pointers

A pointer is a list of keys and indices, each behind a slash. A pointer behind a hash is written
with percent signs for the bytes that a fragment cannot hold.
-/

namespace GraphShape.Json

/-- A token with `~1` for a slash and `~0` for a tilde. -/
def unescapeToken : List Char → List Char
  | '~' :: '1' :: rest => '/' :: unescapeToken rest
  | '~' :: '0' :: rest => '~' :: unescapeToken rest
  | ch :: rest => ch :: unescapeToken rest
  | [] => []

/-- The tokens of a pointer. The empty pointer has none, and any other starts with a slash. -/
def pointerTokens? : List Char → Option (List String)
  | [] => some []
  | '/' :: rest => some ((rest.splitOn '/').map (fun t => String.ofList (unescapeToken t)))
  | _ => none

/-- The index that a token stands for. It has no sign and no zeros in front. -/
def index? (token : String) : Option Nat :=
  match token.toList with
  | '+' :: _ => none
  | ['0'] => some 0
  | '0' :: _ => none
  | digits => Text.natural? 10 digits

def resolve : Json → List String → Option Json
  | j, [] => some j
  | object ms, token :: tokens => (Members.get? ms token).bind (fun j => j.resolve tokens)
  | array xs, token :: tokens =>
    match index? token with
    | some i => xs[i]?.bind (fun j => j.resolve tokens)
    | none => none
  | _, _ :: _ => none

/-- The bytes of a fragment, two digits behind each percent sign. -/
def fragmentBytes? : List UInt8 → Option (List UInt8)
  | [] => some []
  | b :: rest =>
    if b = 37 then
      match rest with
      | high :: low :: more => do
        let n ← Text.unsigned? 16 256 [Char.ofNat high.toNat, Char.ofNat low.toNat]
        let bytes ← fragmentBytes? more
        some (n.toUInt8 :: bytes)
      | _ => none
    else (fragmentBytes? rest).map (b :: ·)

def fragmentText? (fragment : String) : Option String := do
  let bytes ← fragmentBytes? fragment.toUTF8.toList
  String.fromUTF8? ⟨bytes.toArray⟩

/-- The part of a value that a pointer leads to. -/
def at? (j : Json) (pointer : String) : Option Json := do
  let plain ← match pointer.toList with
    | '#' :: fragment => fragmentText? (String.ofList fragment)
    | _ => some pointer
  let tokens ← pointerTokens? plain.toList
  j.resolve tokens

end GraphShape.Json
