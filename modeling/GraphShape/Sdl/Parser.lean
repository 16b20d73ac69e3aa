import GraphShape.Sdl.Document
import GraphShape.Sdl.Token

/-!
# Parsing schema documents

One parser for each part of the grammar. A document holds definitions and extensions of types,
directives and the schema and nothing else, and any other token refuses it. Some parts may break
off: an argument or a field of a value without a colon is no argument and no field, and an
operation without a type has no root.
-/

namespace GraphShape.Sdl

/-- Takes tokens from the front, or fails. -/
abbrev Parser := StateT (List Token) Option

namespace Parser

variable {α : Type}

/-! ## Tokens -/

/-- Drops the commas in front, and the next token stays. -/
def peek : Parser (Option Token) := fun ts =>
  let ts := ts.dropWhile (· = .comma)
  some (ts.head?, ts)

def skip : Parser Unit := fun ts => some ((), ts.drop 1)

def accept (token : Token) : Parser Bool := do
  if (← peek) = some token then do skip; pure true
  else pure false

def expect (token : Token) : Parser Unit := do
  if ← accept token then pure () else failure

def acceptMark (ch : Char) : Parser Bool := accept (.mark ch)

def expectMark (ch : Char) : Parser Unit := expect (.mark ch)

def name : Parser String := do
  match ← peek with
  | some (.name s) => do skip; pure s
  | _ => failure

/-- Refuses a comma at this place. -/
def noComma : Parser Unit := fun ts => if ts.head? = some .comma then none else some ((), ts)

/-- A text in front of a definition describes it. -/
def description : Parser (Option String) := do
  match ← peek with
  | some (.quoted s) => do skip; pure (some s)
  | _ => pure none

/-! ## Lists -/

/-- Items up to a closing mark. The first argument bounds their number. -/
def upTo (close : Char) (item : Parser α) : Nat → Parser (List α)
  | 0 => failure
  | n + 1 => do
    if ← acceptMark close then pure []
    else do
      let a ← item
      let rest ← upTo close item n
      pure (a :: rest)

/-- Items up to a closing mark, as many as there are. -/
def untilMark (close : Char) (item : Parser α) : Parser (List α) :=
  fun ts => upTo close item (ts.length + 1) ts

/-- At least one item up to a closing mark. -/
def someUntil (close : Char) (item : Parser α) : Parser (List α) := do
  match ← untilMark close item with
  | [] => failure
  | items => pure items

/-- At least one item between marks, or nothing at all. -/
def bracketed (start close : Char) (item : Parser α) : Parser (List α) := do
  if ← acceptMark start then someUntil close item else pure []

def behindColon (item : Parser α) : Parser (Option α) := do
  if ← acceptMark ':' then do
    let a ← item
    pure (some a)
  else pure none

/-- An item with a name in front of its colon, or nothing when the colon is missing. -/
def labelled (item : Parser α) : Parser (Option (String × α)) := do
  let s ← name
  let a ← behindColon item
  pure (a.map (fun a => (s, a)))

/-- Items each behind a mark. The first argument bounds their number. -/
def behindMarks (mark : Char) (item : Parser α) : Nat → Parser (List α)
  | 0 => pure []
  | n + 1 => do
    if ← acceptMark mark then do
      let a ← item
      let rest ← behindMarks mark item n
      pure (a :: rest)
    else pure []

/-- Items with a mark between them. One may also stand in front of the first. -/
def separated (mark : Char) (item : Parser α) : Parser (List α) := do
  let _ ← acceptMark mark
  let first ← item
  let rest ← fun ts => behindMarks mark item ts.length ts
  pure (first :: rest)

/-! ## Types and values -/

def nestingLimit : Nat := 500

/-- A type reference. The first argument bounds its nesting. -/
def typeRef : Nat → Parser TypeRef
  | 0 => failure
  | n + 1 => do
    if ← acceptMark '[' then do
      let item ← typeRef n
      expectMark ']'
      let nonNull ← acceptMark '!'
      pure (.list item nonNull)
    else do
      let s ← name
      let nonNull ← acceptMark '!'
      pure (.named s nonNull)

def namedValue (s : String) : Value :=
  match s with
  | "true" => .bool true
  | "false" => .bool false
  | "null" => .null
  | _ => .enum s

/-- A value without variables. The first argument bounds its nesting. -/
def value : Nat → Parser Value
  | 0 => failure
  | n + 1 => do
    match ← peek with
    | some (.int text) => do skip; pure (.int text)
    | some (.float text) => do skip; pure (.float text)
    | some (.quoted s) => do skip; pure (.text s)
    | some (.name s) => do skip; pure (namedValue s)
    | some (.mark '[') => do
      skip
      let items ← untilMark ']' (value n)
      pure (.list items)
    | some (.mark '\x7b') => do
      skip
      let fields ← untilMark '\x7d' (if n = 0 then failure else labelled (value n))
      pure (.object (fields.filterMap id))
    | _ => failure

/-! ## Directives -/

def directiveUse : Parser DirectiveUse := do
  let s ← name
  let arguments ← bracketed '(' ')' (labelled (value (nestingLimit + 1)))
  pure ⟨s, arguments.filterMap id⟩

def directives : Parser (List DirectiveUse) :=
  fun ts => behindMarks '@' directiveUse ts.length ts

/-! ## Parts of types -/

def inputDecl : Parser InputDecl := do
  let _ ← description
  let s ← name
  expectMark ':'
  let type ← typeRef (nestingLimit + 1)
  let default ← (do
    if ← acceptMark '=' then do
      let v ← value (nestingLimit + 1)
      pure (some v)
    else pure none : Parser (Option Value))
  let ds ← directives
  pure ⟨s, type, default, ds⟩

def arguments : Parser (List InputDecl) := bracketed '(' ')' inputDecl

def fieldDecl : Parser FieldDecl := do
  let text ← description
  let s ← name
  let inputs ← arguments
  expectMark ':'
  let type ← typeRef (nestingLimit + 1)
  let ds ← directives
  pure ⟨s, text, inputs, type, ds⟩

def reservedValues : List String := ["true", "false", "null"]

def enumValueDecl : Parser EnumValueDecl := do
  let _ ← description
  let s ← name
  if reservedValues.contains s then failure
  else do
    let ds ← directives
    pure ⟨s, ds⟩

def interfaces : Parser (List String) := do
  if ← accept (.name "implements") then separated '&' name else pure []

def unionMembers : Parser (List String) := do
  if ← acceptMark '=' then separated '|' name else pure []

/-! ## Definitions -/

def typeDecl (description : Option String) (keyword : String) : Parser TypeDecl := do
  let s ← name
  match keyword with
  | "scalar" => do
    let ds ← directives
    pure ⟨s, description, ds, .scalar⟩
  | "type" => do
    let inherited ← interfaces
    let ds ← directives
    let fields ← bracketed '\x7b' '\x7d' fieldDecl
    pure ⟨s, description, ds, .object inherited fields⟩
  | "interface" => do
    let inherited ← interfaces
    let ds ← directives
    let fields ← bracketed '\x7b' '\x7d' fieldDecl
    pure ⟨s, description, ds, .interface inherited fields⟩
  | "union" => do
    let ds ← directives
    let members ← unionMembers
    pure ⟨s, description, ds, .union members⟩
  | "enum" => do
    let ds ← directives
    let values ← bracketed '\x7b' '\x7d' enumValueDecl
    pure ⟨s, description, ds, .enum values⟩
  | "input" => do
    let ds ← directives
    let fields ← bracketed '\x7b' '\x7d' inputDecl
    pure ⟨s, description, ds, .input fields⟩
  | _ => failure

/-- Whether a body brings nothing. -/
def isBare : Body → Bool
  | .scalar => true
  | .object inherited fields => inherited.isEmpty && fields.isEmpty
  | .interface inherited fields => inherited.isEmpty && fields.isEmpty
  | .union members => members.isEmpty
  | .enum values => values.isEmpty
  | .input fields => fields.isEmpty

def location : Parser Location := do
  let s ← name
  match Members.get? Location.named s with
  | some l => pure l
  | none => failure

def directiveDecl : Parser DirectiveDecl := do
  expectMark '@'
  let s ← name
  let inputs ← arguments
  let repeatable ← accept (.name "repeatable")
  expect (.name "on")
  let locations ← separated '|' location
  pure ⟨s, inputs, repeatable, locations⟩

/-- The type at this place, if there is a name. -/
def name? : Parser (Option String) := do
  match ← peek with
  | some (.name s) => do skip; pure (some s)
  | _ => pure none

/-- An operation with the type of its root, or nothing when the type is missing. -/
def root : Parser (Option (Operation × String)) := do
  let s ← name
  match Operation.all.find? (fun o => o.keyword = s) with
  | some operation => do
    expectMark ':'
    let type ← name?
    pure (type.map (fun t => (operation, t)))
  | none => failure

def schemaDecl : Parser SchemaDecl := do
  let ds ← directives
  let roots ← bracketed '\x7b' '\x7d' root
  pure ⟨ds, roots.filterMap id⟩

/-- What follows the keyword of a schema extension. It has to bring something. -/
def schemaExtension : Parser SchemaDecl := do
  let ds ← directives
  let roots ← if ← acceptMark '\x7b' then untilMark '\x7d' root else pure []
  if ds.isEmpty && roots.isEmpty then failure else pure ⟨ds, roots.filterMap id⟩

/-- An extension, behind its keyword. It has to bring something. -/
def extension : Parser Definition := do
  noComma
  let keyword ← name
  if keyword = "schema" then do
    let d ← schemaExtension
    pure (.schemaExtension d)
  else do
    let d ← typeDecl none keyword
    if d.directives.isEmpty && isBare d.body then failure else pure (.typeExtension d)

/-- What a keyword other than that of an extension starts. -/
def keyworded (description : Option String) (keyword : String) : Parser Definition := do
  match keyword with
  | "schema" => do let d ← schemaDecl; pure (.schema d)
  | "directive" => do let d ← directiveDecl; pure (.directive d)
  | _ => do let d ← typeDecl description keyword; pure (.type d)

/-- A definition or an extension. An extension has no description. -/
def definition : Parser Definition := do
  let text ← description
  if text.isSome then noComma else pure ()
  let keyword ← name
  if text.isNone && keyword = "extend" then extension else keyworded text keyword

/-- Definitions up to the end. The first argument bounds their number. -/
def definitions : Nat → Parser (List Definition)
  | 0 => failure
  | n + 1 => do
    match ← peek with
    | none => pure []
    | some _ => do
      let d ← definition
      let rest ← definitions n
      pure (d :: rest)

end Parser

def parse? (document : String) : Option (List Definition) := do
  let tokens ← Token.ofText? document
  let (definitions, _) ← Parser.definitions (tokens.length + 1) tokens
  some definitions

end GraphShape.Sdl
