import GraphShape.Text.Similarity

/-!
# Command line arguments

A call names at most one configuration file and may ask for the list of convertible types. The
first word that does not fit stops the reading, and the complaint about it shows how to call the
program, with a tip when there is one.
-/

namespace GraphShape.CommandLine

def programName : String := "graphql-json-schema"

/-- The name of the configuration file in texts about it. -/
def configName : String := "[CONFIG]"

inductive Flag where
  | listTypes
  | help
  deriving DecidableEq, Repr

namespace Flag

def all : List Flag := [listTypes, help]

def name : Flag → String
  | listTypes => "list-types"
  | help => "help"

/-- Whether only this program has the flag. Every program has one that asks for help. -/
def isOwn : Flag → Bool
  | listTypes => true
  | help => false

def written (f : Flag) : String := "--" ++ f.name

def ofName? (name : String) : Option Flag := all.find? (fun f => f.name = name)

/-- The flag whose name is most similar to a word. -/
def similarTo? (word : String) : Option Flag :=
  (Text.mostSimilar? word (all.map name)).bind ofName?

end Flag

/-! ## Complaints -/

inductive Usage where
  | general
  /-- With some flags. A configuration file that was given is shown as one that has to be. -/
  | withFlags (flags : List Flag) (hasConfig : Bool)
  /-- With some flags, and with at least one of the program's own arguments. -/
  | withOwn (flags : List Flag)
  deriving DecidableEq, Repr

namespace Usage

def words : Usage → List String
  | general => ["[OPTIONS]", configName]
  | withFlags flags hasConfig =>
    flags.eraseDups.map Flag.written ++ [if hasConfig then "<CONFIG>" else configName]
  | withOwn flags =>
    (flags.filter (fun f => !f.isOwn)).eraseDups.map Flag.written ++
      ["<CONFIG|" ++ Flag.listTypes.written ++ ">"]

def text (u : Usage) : String := "Usage: " ++ " ".intercalate (programName :: u.words)

end Usage

inductive ArgumentFault where
  /-- It is written like a flag and is none. -/
  | unknownFlag (written : String) (similar : Option Flag)
  | extraWord (word : String)
  | repeated (flag : Flag)
  | unwantedValue (flag : Flag) (value : String)
  | emptyConfig
  deriving DecidableEq, Repr

namespace ArgumentFault

def text : ArgumentFault → String
  | unknownFlag written _ => "unexpected argument '" ++ written ++ "' found"
  | extraWord word => "unexpected argument '" ++ word ++ "' found"
  | repeated flag =>
    "the argument '" ++ flag.written ++ "' cannot be used multiple times"
  | unwantedValue flag value =>
    "unexpected value '" ++ value ++ "' for '" ++ flag.written ++
      "' found; no more were expected"
  | emptyConfig => "a value is required for '" ++ configName ++ "' but none was supplied"

/-- What was probably meant by an unknown flag. -/
def tip? : ArgumentFault → Option String
  | unknownFlag _ (some flag) =>
    some ("a similar argument exists: '" ++ flag.written ++ "'")
  | unknownFlag written none =>
    some ("to pass '" ++ written ++ "' as a value, use '-- " ++ written ++ "'")
  | _ => none

end ArgumentFault

/-- A fault and the usage that is shown with it, if any. -/
structure ArgumentProblem where
  fault : ArgumentFault
  usage : Option Usage
  deriving DecidableEq, Repr

/-- The complaint in paragraphs: fault, tip, usage and where to get help. -/
def ArgumentProblem.text (p : ArgumentProblem) : String :=
  let tip := p.fault.tip?.map (fun t => "  tip: " ++ t)
  "\n\n".intercalate ([("error: " ++ p.fault.text)] ++ tip.toList ++
    (p.usage.map Usage.text).toList ++ ["For more information, try '--help'."])

/-! ## Words -/

inductive Word where
  /-- Two dashes and a name, with a value behind an equals sign. -/
  | flag (name : String) (value : Option String)
  /-- A dash and a letter, with anything behind it. -/
  | letter (ch : Char)
  | plain
  deriving DecidableEq, Repr

def Word.ofText (text : String) : Word :=
  match text.toList with
  | '-' :: '-' :: rest =>
    let value := match rest.dropWhile (fun ch => ch ≠ '=') with
      | [] => none
      | _ :: chars => some (String.ofList chars)
    .flag (String.ofList (rest.takeWhile (fun ch => ch ≠ '='))) value
  | '-' :: ch :: _ => .letter ch
  | _ => .plain

/-! ## Calls -/

/-- What a call asks for besides help. -/
structure Arguments where
  /-- The configuration file. Settings come from the environment alone without one. -/
  config : Option String := none
  listTypes : Bool := false
  deriving DecidableEq, Repr

inductive Request where
  | help
  | convert (a : Arguments)
  deriving DecidableEq, Repr

namespace Arguments

def flags (a : Arguments) : List Flag := if a.listTypes then [.listTypes] else []

/-- The usage that goes with an unknown flag: what has been used so far and what is similar. -/
def usage (a : Arguments) (similar : Option Flag) : Usage :=
  let flags := a.flags ++ similar.toList
  if flags.isEmpty && a.config.isNone then .general else .withFlags flags a.config.isSome

/-- The usage that goes with a value that a flag does not take. -/
def valueUsage (a : Arguments) (flag : Flag) : Usage :=
  if a.flags.isEmpty then .withFlags [flag] false else .withOwn (a.flags ++ [flag])

/-- A configuration file has to have a name. -/
def check (a : Arguments) : Except ArgumentProblem Unit :=
  if a.config = some "" then .error ⟨.emptyConfig, none⟩ else .ok ()

def takeWord (a : Arguments) (word : String) : Except ArgumentProblem Arguments :=
  match a.config with
  | none => .ok { a with config := some word }
  | some _ => .error ⟨.extraWord word, some .general⟩

/-- Takes a flag. Nothing is left of the call to read when it asks for help. -/
def takeFlag (a : Arguments) (flag : Flag) : Except ArgumentProblem (Option Arguments) := do
  a.check
  match flag with
  | .help => pure none
  | .listTypes =>
    if a.listTypes then .error ⟨.repeated .listTypes, some .general⟩
    else pure (some { a with listTypes := true })

def readWords : List String → Arguments → Except ArgumentProblem Request
  | [], a => do
    a.check
    pure (.convert a)
  | word :: rest, a => do
    let a ← a.takeWord word
    readWords rest a

/-- Reads words up to two dashes, behind which no word is a flag. -/
def readFrom : List String → Arguments → Except ArgumentProblem Request
  | [], a => readWords [] a
  | word :: rest, a =>
    if word = "--" then readWords rest a
    else
      match Word.ofText word with
      | .plain => do
        let a ← a.takeWord word
        readFrom rest a
      | .letter ch => do
        if ch = 'h' then
          a.check
          pure .help
        else .error ⟨.unknownFlag (String.ofList ['-', ch]) none, some .general⟩
      | .flag name value =>
        match Flag.ofName? name, value with
        | none, _ =>
          let similar := Flag.similarTo? name
          .error ⟨.unknownFlag ("--" ++ name) similar, some (a.usage similar)⟩
        | some flag, some value =>
          .error ⟨.unwantedValue flag value, some (a.valueUsage flag)⟩
        | some flag, none => do
          match ← a.takeFlag flag with
          | none => pure .help
          | some a => readFrom rest a

end Arguments

def Request.ofArguments (words : List String) : Except ArgumentProblem Request :=
  Arguments.readFrom words {}

def helpText : String :=
  "Convert GraphQL object types into JSON Schema documents\n\n" ++
    Usage.general.text ++ "\n\n" ++
    "Arguments:\n" ++
    "  [CONFIG]  Path to the config file. Settings are read from the environment when omitted\n" ++
    "\n" ++
    "Options:\n" ++
    "      --list-types  Print the object types that can be converted as a root, then exit\n" ++
    "  -h, --help        Print help\n"

end GraphShape.CommandLine
