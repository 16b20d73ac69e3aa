import GraphShape.Log.FieldValue
import GraphShape.Log.Level
import GraphShape.Log.Record

/-!
# Log directives

A directive names the source of records, or a span with a field, and the most detailed level that
passes. The more it names, the more specific it is.
-/

namespace GraphShape.Log

/-- The most detailed level that passes, or none at all. -/
abbrev Threshold := Option Level

namespace Threshold

def name (t : Threshold) : String := (t.map Level.name).getD "off"

def passes (t : Threshold) (level : Level) : Bool :=
  match t with
  | some greatest => level.detail ≤ greatest.detail
  | none => false

/-- The threshold that a text names or numbers, zero and `off` for none. -/
def ofText? (text : String) : Option Threshold :=
  if Text.unsigned? 10 (Nat.pow 2 64) text.toList = some 0 || sameLetters "off" text then some none
  else (Level.ofText? text).map some

end Threshold

/-- A condition on a field: its name, and its value when there is one. -/
structure FieldTest where
  name : String
  value : Option FieldValue
  deriving DecidableEq, Repr

namespace FieldTest

def text (t : FieldTest) : String :=
  match t.value with
  | none => t.name
  | some v => t.name ++ "=" ++ v.text

/-- A condition with a value is more specific than one without. -/
def order (a b : FieldTest) : Ordering :=
  (compare a.value.isSome.toNat b.value.isSome.toNat).then ((compare a.name b.name).then
    (match a.value, b.value with
      | some v, some w => v.order w
      | _, _ => .eq))

end FieldTest

structure Directive where
  source : Option String
  span : Option String
  fields : List FieldTest
  threshold : Threshold
  deriving DecidableEq, Repr

namespace Directive

/-- Lets a level pass from everywhere. -/
def everywhere (level : Level) : Directive := ⟨none, none, [], some level⟩

/-- Whether it depends on the span that a record is in. -/
def isDynamic (d : Directive) : Bool := d.span.isSome || !d.fields.isEmpty

/-- Whether it can be decided by a record alone. -/
def isStatic (d : Directive) : Bool := d.span.isNone && d.fields.all (fun t => t.value.isNone)

def concerns (d : Directive) (r : Record) : Bool :=
  (d.source.all (fun s => r.source.startsWith s)) &&
    d.fields.all (fun t => r.fieldNames.contains t.name)

def text (d : Directive) : String :=
  let fields := match d.fields with
    | [] => ""
    | tests => "\x7b" ++ ",".intercalate (tests.map FieldTest.text) ++ "\x7d"
  let span := if d.isDynamic then "[" ++ d.span.getD "" ++ fields ++ "]" else ""
  let place := d.source.getD "" ++ span
  if d.source.isNone && !d.isDynamic then d.threshold.name else place ++ "=" ++ d.threshold.name

/-! ## The order of directives -/

/-- The first difference of two lists. -/
def compareLists : List Ordering → Ordering
  | [] => .eq
  | o :: rest => o.then (compareLists rest)

def compareTexts (a b : String) : Ordering := compare a b

def compareOptions (a b : Option String) : Ordering :=
  match a, b with
  | none, none => .eq
  | none, some _ => .lt
  | some _, none => .gt
  | some x, some y => compareTexts x y

/-- The length of a text in bytes, no text being shorter than any text. -/
def rankLength (a : Option String) : Nat := (a.map (fun s => s.utf8ByteSize + 1)).getD 0

/-- How specific a directive is beside another one. -/
def specificity (a b : Directive) : Ordering :=
  compareLists [
    compare (rankLength a.source) (rankLength b.source),
    compare a.span.isSome.toNat b.span.isSome.toNat,
    compare a.fields.length b.fields.length,
    compareOptions a.source b.source,
    compareOptions a.span b.span,
    compareLists (List.zipWith FieldTest.order a.fields b.fields)]

/-- Puts a directive in front of the less specific ones, in the place of an equal one. -/
def insert (d : Directive) : List Directive → List Directive
  | [] => [d]
  | other :: rest =>
    match specificity d other with
    | .gt => d :: other :: rest
    | .eq => d :: rest
    | .lt => other :: insert d rest

end Directive

/-! ## Reading directives -/

inductive DirectiveFault where
  | malformed
  | unknownLevel
  | badPattern (fault : PatternFault)
  deriving DecidableEq, Repr

def PatternFault.text : PatternFault → String
  | malformed => "error building NFA"
  | wordEdge =>
    "unsupported regex feature for DFAs: cannot build DFAs for regexes with Unicode word " ++
      "boundaries; switch to ASCII word boundaries, or heuristically enable Unicode word " ++
      "boundaries or use a different regex engine"

def DirectiveFault.text : DirectiveFault → String
  | malformed => "invalid filter directive"
  | unknownLevel =>
    "error parsing level filter: expected one of \"off\", \"error\", \"warn\", \"info\", " ++
      "\"debug\", \"trace\", or a number 0-5"
  | badPattern fault => "invalid field filter: " ++ fault.text

/-- A condition written as a name, or a name and a value around an equals sign. -/
def FieldTest.ofText (text : String) : Except DirectiveFault FieldTest :=
  match text.toList.splitOn '=' with
  | name :: value :: _ =>
    match FieldValue.ofText (String.ofList value) with
    | .ok v => .ok ⟨String.ofList name, some v⟩
    | .error fault => .error (.badPattern fault)
  | _ => .ok ⟨text, none⟩

namespace Directive

/-- What a text is being read as, with the place where that part starts. -/
inductive Phase where
  | start
  /-- A level or a source. -/
  | word (origin : Nat)
  | level (origin : Nat)
  | span (origin : Nat)
  | field (origin : Nat)
  | afterFields
  | afterSpan
  deriving DecidableEq, Repr

/-- The characters behind the first so many bytes. -/
def dropBytes : Nat → List Char → List Char
  | 0, text => text
  | _, [] => []
  | n, ch :: rest => dropBytes (n - ch.utf8Size) rest

/-- The characters that fit into so many bytes. -/
def takeBytes : Nat → List Char → List Char
  | _, [] => []
  | n, ch :: rest => if ch.utf8Size ≤ n then ch :: takeBytes (n - ch.utf8Size) rest else []

/-- The part of a text between two places, which count bytes. -/
def cut (text : List Char) (origin stop : Nat) : String :=
  String.ofList (takeBytes (stop - origin) (dropBytes origin text))

/-- The part of a text from a place to its end. -/
def cutFrom (text : List Char) (origin : Nat) : String :=
  String.ofList (dropBytes origin text)

/-- Whether a source or a level may start with a character. -/
def isWordStart (ch : Char) : Bool := Text.isWordChar ch || ch = '-' || ch = ':' || ch = '_'

/-- The directive with the level that a word names. No word stands for the most detailed one. -/
def withLevel (d : Directive) (word : String) : Except DirectiveFault Directive :=
  if word.isEmpty then .ok { d with threshold := some .trace }
  else
    match Threshold.ofText? word with
    | some t => .ok { d with threshold := t }
    | none => .error .unknownLevel

/-- The directive of one word: a level, or a source of which everything passes. -/
def withWord (d : Directive) (word : String) : Directive :=
  match Threshold.ofText? word with
  | some t => { d with source := none, threshold := t }
  | none => { d with source := some word, threshold := some .trace }

/-- Takes a character at a place. The parts that end there are cut from the text. -/
def advance (text : List Char) (d : Directive) (phase : Phase) (place : Nat) (ch : Char) :
    Except DirectiveFault (Directive × Phase) :=
  match phase with
  | .start =>
    if ch = '[' then .ok (d, .span (place + 1))
    else if isWordStart ch then .ok (d, .word place)
    else .error .malformed
  | .word origin =>
    let named := { d with source := some (cut text origin place) }
    if ch = '=' then .ok (named, .level (place + 1))
    else if ch = '[' then .ok (named, .span (place + 1))
    else .ok (d, phase)
  | .level _ => .ok (d, phase)
  | .span origin =>
    let name := cut text origin place
    if ch = ']' then .ok ({ d with span := some name }, .afterSpan)
    else if ch = '\x7b' then
      .ok ({ d with span := if name.isEmpty then none else some name }, .field (place + 1))
    else .ok (d, phase)
  | .field origin =>
    if ch = '\x7d' then
      let inside := cut text origin place
      if inside.isEmpty then .error .malformed
      else (FieldTest.ofText inside).map (fun t => ({ d with fields := [t] }, .afterFields))
    else .ok (d, phase)
  | .afterFields => if ch = ']' then .ok (d, .afterSpan) else .error .malformed
  | .afterSpan => if ch = '=' then .ok (d, .level (place + 1)) else .error .malformed

/-- The directive at the end of a text. Brackets have to be closed. -/
def finish (text : List Char) (d : Directive) : Phase → Except DirectiveFault Directive
  | .word origin => .ok (d.withWord (cutFrom text origin))
  | .level origin => d.withLevel (cutFrom text origin)
  | .afterSpan => .ok d
  | _ => .error .malformed

def readFrom (text : List Char) (d : Directive) (phase : Phase) :
    Nat → List Char → Except DirectiveFault Directive
  | _, [] => finish text d phase
  | place, ch :: rest =>
    match advance text d phase place ch with
    | .ok (d, phase) => readFrom text d phase (place + ch.utf8Size) rest
    | .error fault => .error fault

/-- The directive that a text stands for. The blanks around it are left out when it is read, but
the parts are cut from the text that has them, at the places found without. -/
def parse (text : String) : Except DirectiveFault Directive :=
  readFrom text.toList (everywhere .trace) .start 0 (Text.trim text.toList)

end Directive

end GraphShape.Log
