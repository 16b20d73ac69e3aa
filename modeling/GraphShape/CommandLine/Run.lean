import GraphShape.CommandLine.Failure
import GraphShape.CommandLine.Host
import GraphShape.Conversion.Configured
import GraphShape.Conversion.Report
import GraphShape.Log.Filter
import GraphShape.Sdl.Loading
import GraphShape.Settings.Published

/-!
# Runs

A run reads its arguments, the configuration, the schema and the map of scalars, converts, and
delivers the document. Nothing but the log is written before the last step, so a run that fails
leaves no document behind: what it prints is its result, and only a whole document is a result.
-/

namespace GraphShape.CommandLine

variable {m : Type → Type} [Monad m]

/-- A run stops at its first failure. -/
abbrev Run (m : Type → Type) := ExceptT Failure m

def Run.ofExcept {ε α : Type} (failure : ε → Failure) (result : Except ε α) : Run m α :=
  ExceptT.mk (pure (result.mapError failure))

/-- Lets the host do what cannot fail. -/
def Run.act {α : Type} (action : m α) : Run m α := ExceptT.lift action

/-- Asks the host, and goes on unless there is a failure. -/
def Run.ask {ε α : Type} (failure : ε → Failure) (answer : m (Except ε α)) : Run m α :=
  ExceptT.mk (do
    let result ← answer
    pure (result.mapError failure))

/-! ## Configuration -/

/-- The text of a configuration file, and the name that is shown for it. -/
structure ConfigFile where
  name : String
  text : String

/-- The paths under which a configuration file is looked for, each with the place that it means:
in the working directory and in those above it. -/
def configPaths (here : Place) (path : String) : List (String × Place) :=
  let names := (Path.names path).filter (fun name => name ≠ ".")
  if Path.startsAtRoot path then [(path, names)]
  else
    (List.range (here.length + 1)).map (fun up =>
      (String.join (List.replicate up "../") ++ path, here.take (here.length - up) ++ names))

/-- The first of several paths under which there is a file. -/
def firstFile (host : Host m) : List (String × Place) → m (Option (String × Place))
  | [] => pure none
  | candidate :: rest => do
    if ← host.isFile candidate.1 then pure (some candidate) else firstFile host rest

/-- The configuration file of a path. One that is not there is left out. -/
def readConfigFile (host : Host m) (path : String) : Run m (Option ConfigFile) := do
  let here ← Run.act host.here
  match ← Run.act (firstFile host (configPaths here path)) with
  | none => pure none
  | some (found, place) =>
    let name := Path.shown here place
    let text ← Run.ask (Failure.configFile name) (host.read found)
    pure (some ⟨name, text⟩)

/-- The failure that a problem of the configuration is, by where the value comes from. -/
def configFailure (environment : Environment) (file : Option ConfigFile) :
    Config.Problem → Failure
  | .badFile => .badConfigFile ((file.map ConfigFile.name).getD "")
  | .setting p =>
    match file with
    | some f =>
      if Config.isFromEnvironment environment p.path then .setting p .environment
      else .setting p (.file f.name)
    | none => .setting p .environment

/-- The configuration of the environment and the file that a call names. -/
def readConfig (host : Host m) (environment : Environment) (path : Option String) :
    Run m Config := do
  let file ← match path with
    | none => pure none
    | some p => readConfigFile host p
  Run.ofExcept (configFailure environment file)
    (Config.load environment (file.map ConfigFile.text))

/-! ## Log -/

structure Logger where
  filter : Log.Filter
  sink : Sink

/-- Tells why the log is not in a file. -/
def noteLogFault (host : Host m) (trouble : String) (fault : FileFault) : m Sink := do
  host.note (trouble ++ ": " ++ fault.text ++ ", logging to stderr instead")
  pure .console

/-- The log file of a directory. Without one, or when it cannot be made, the log is told on the
console. -/
def openSink (host : Host m) (logging : Logging) : m Sink := do
  match logging.path with
  | none => pure .console
  | some directory =>
    match ← host.makeDirectories directory with
    | .error fault => noteLogFault host ("Could not create log directory " ++ directory) fault
    | .ok () =>
      let file := Path.join directory (logging.rotation.fileName programName (← host.now))
      match ← host.openLog file with
      | .ok () => pure (.file file)
      | .error fault =>
        noteLogFault host
          ("Could not open log file: failed to create log file: " ++ fault.text) fault

/-- The variable with further directives for the log. -/
def directivesVariable : String := "RUST_LOG"

/-- Starts the log, with a note about each directive that cannot be followed. -/
def openLogger (host : Host m) (environment : Environment) (logging : Logging) :
    m Logger := do
  let sink ← openSink host logging
  let directives := (Members.get? environment directivesVariable).getD ""
  let (filter, remarks) := Log.Filter.ofLevel logging.level directives
  remarks.forM host.note
  pure ⟨filter, sink⟩

def Logger.log (l : Logger) (host : Host m) (r : Log.Record) : m Unit :=
  if l.filter.passes r then host.record l.sink r else pure ()

def versionRecord : Log.Record :=
  ⟨.info, "graphql_json_schema", programName ++ " v0.1.0 // Licensed under MIT", []⟩

def schemaRecord (path : String) : Log.Record :=
  ⟨.debug, "graphql_json_schema::runtime::schema_source", "Loading schema",
    [("schema", Text.quoted path)]⟩

def scalarsRecord (path : String) : Log.Record :=
  ⟨.debug, "graphql_json_schema::custom_scalar_map", "Loading custom scalar map",
    [("path", path)]⟩

/-! ## Conversion -/

def loadTypes (host : Host m) (l : Logger) (c : Config) : Run m TypeMap := do
  let path ← Run.ofExcept (fun _ : Unit => .noSchema) (c.schema.elim (.error ()) .ok)
  Run.act (l.log host (schemaRecord path))
  let document ← Run.ask (Failure.schemaFile path) (host.read path)
  Run.ofExcept (fun _ : Unit => .invalidSchema path)
    ((TypeMap.ofDocument? document).elim (.error ()) .ok)

def loadScalars (host : Host m) (l : Logger) (c : Config) : Run m (Option ScalarMap) := do
  match c.customScalars with
  | none => pure none
  | some path =>
    Run.act (l.log host (scalarsRecord path))
    let text ← Run.ask Failure.scalarsFile (host.read path)
    some <$> Run.ofExcept Failure.scalars (ScalarMap.parse text)

def convert (host : Host m) (l : Logger) (c : Config) (types : TypeMap)
    (scalars : Option ScalarMap) : Run m Schema := do
  let conversion := c.conversion types scalars
  Run.act (conversion.events.forM (fun e => l.log host e.record))
  Run.ofExcept Failure.conversion conversion.outcome

/-- Writes a document to the configured file, or gives it as what is printed. -/
def deliver (host : Host m) (c : Config) (document : Schema) : Run m String := do
  let text := c.output.render document ++ "\n"
  match c.output.path with
  | none => pure text
  | some path =>
    Run.ask (Failure.output path) (host.write path text)
    pure ""

/-! ## The run -/

/-- The names of the types that can be a root, one a line. -/
def typeList (types : TypeMap) : String :=
  String.join (types.objectNames.map (fun name => name ++ "\n"))

def follow (host : Host m) (environment : Environment) (a : Arguments) :
    Run m String := do
  let c ← readConfig host environment a.config
  let l ← Run.act (openLogger host environment c.logging)
  Run.act (l.log host versionRecord)
  let types ← loadTypes host l c
  if a.listTypes then pure (typeList types)
  else
    let scalars ← loadScalars host l c
    let document ← convert host l c types scalars
    deliver host c document

def run (host : Host m) (environment : Environment) (words : List String) :
    Run m String := do
  match ← Run.ofExcept Failure.arguments (Request.ofArguments words) with
  | .help => pure helpText
  | .convert a => follow host environment a

def publishedText : String := Config.publishedSchema.render .pretty ++ "\n"

/-! ## What is left of it -/

/-- What a program prints and complains about, with its exit code. -/
structure Outcome where
  code : UInt32
  output : String
  complaint : Option String
  deriving DecidableEq, Repr

/-- Something is printed, or there is a complaint, but never both. -/
def Outcome.ofResult : Except Failure String → Outcome
  | .ok output => ⟨0, output, none⟩
  | .error f => ⟨f.code, "", some f.text⟩

inductive Program where
  | convert
  | configSchema
  deriving DecidableEq, Repr

def Program.run (p : Program) (host : Host m) (environment : Environment)
    (words : List String) : m Outcome :=
  match p with
  | .convert => do
    let result ← (CommandLine.run host environment words).run
    pure (Outcome.ofResult result)
  | .configSchema => pure ⟨0, publishedText, none⟩

end GraphShape.CommandLine
