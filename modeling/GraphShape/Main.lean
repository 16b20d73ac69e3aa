import GraphShape.CommandLine.Run
import Std.Time.DateTime.Timestamp

/-!
# The program

Runs on the files, the environment and the clock of the machine. The name under which it is
called says which program is meant.
-/

namespace GraphShape.CommandLine

/-! ## Faults of the machine -/

/-- The number of a fault, with what the machine says about it. -/
def faultNumber : IO.Error → Option (UInt32 × String)
  | .alreadyExists _ n s | .otherError n s | .resourceBusy n s | .resourceVanished n s
  | .unsupportedOperation n s | .hardwareFault n s | .unsatisfiedConstraints n s
  | .illegalOperation n s | .protocolError n s | .timeExpired n s | .interrupted _ n s
  | .noFileOrDirectory _ n s | .invalidArgument _ n s | .permissionDenied _ n s
  | .resourceExhausted _ n s | .inappropriateType _ n s | .noSuchThing _ n s => some (n, s)
  | .unexpectedEof | .userError _ => none

def faultOf (e : IO.Error) : FileFault :=
  match faultNumber e with
  | some (2, _) => .notFound
  | some (17, _) => .alreadyExists
  | some (20, _) => .notADirectory
  | some (21, _) => .isADirectory
  | some (36, _) => .nameTooLong
  | some (n, s) => .other (s ++ " (os error " ++ toString n ++ ")")
  | none => .other (toString e)

def attempt {α : Type} (path : String) (action : IO α) : IO (Except FileFault α) := do
  match Path.check path with
  | .error fault => pure (.error fault)
  | .ok () => do
    let result ← action.toBaseIO
    pure (result.mapError faultOf)

/-! ## The machine as a host -/

def currentMoment : IO Moment := do
  let t ← Std.Time.Timestamp.now
  pure (Moment.ofMicroseconds (t.toNanosecondsSinceUnixEpoch.val / 1000).toNat)

def readBytes (path : String) : IO (Except FileFault ByteArray) :=
  attempt path do
    let file ← IO.FS.Handle.mk path .read
    file.readBinToEnd

def readText (path : String) : IO (Except FileFault String) := do
  let bytes ← readBytes path
  pure (bytes.bind textOfBytes)

def isPlainFile (path : String) : IO Bool := do
  let bytes ← readBytes path
  pure bytes.isOk

def appendText (path text : String) : IO (Except FileFault Unit) :=
  attempt path do
    let file ← IO.FS.Handle.mk path .append
    file.putStr text
    file.flush

/-- Makes directories one in the other, as far as they are missing. -/
def makeInTurn (made : String) : List String → IO (Except FileFault Unit)
  | [] => pure (.ok ())
  | name :: rest => do
    let path := made ++ name
    match ← attempt path (IO.FS.createDir path) with
    | .ok () => makeInTurn (path ++ "/") rest
    | .error fault =>
      match ← readBytes path with
      | .error .isADirectory => makeInTurn (path ++ "/") rest
      | _ =>
        pure (.error (if fault = .alreadyExists ∧ !rest.isEmpty then .notADirectory else fault))

def machine : Host IO where
  here := do
    let directory ← IO.currentDir
    pure (Path.names directory.toString)
  now := currentMoment
  isFile := isPlainFile
  read := readText
  write path text := attempt path (IO.FS.writeFile path text)
  makeDirectories path :=
    match Path.check path with
    | .error fault => pure (.error fault)
    | .ok () => makeInTurn (if Path.startsAtRoot path then "/" else "") (Path.names path)
  openLog path := appendText path ""
  record sink r := do
    let line := r.stampedLine (← currentMoment) ++ "\n"
    match sink with
    | .console => (← IO.getStderr).putStr line
    | .file path => do
      let _ ← appendText path line
  note line := do
    (← IO.getStderr).putStr (line ++ "\n")

/-! ## Start -/

/-- Where the machine shows the environment of the running program. -/
def environmentFile : String := "/proc/self/environ"

/-- The environment that bytes list, with a zero behind each variable. -/
def environmentOfBytes (bytes : List UInt8) : Environment :=
  (bytes.splitOn 0).filterMap (fun entry =>
    match String.fromUTF8? ⟨entry.toArray⟩ with
    | none => none
    | some text =>
      match text.toList.dropWhile (fun ch => ch ≠ '=') with
      | [] => none
      | _ :: value =>
        some (String.ofList (text.toList.takeWhile (fun ch => ch ≠ '=')), String.ofList value))

def Program.ofName (name : Option String) : Program :=
  if name = some "config-schema" then .configSchema else .convert

/-- Runs the program of its name and gives its exit code. -/
def start (words : List String) : IO UInt32 := do
  let bytes ← readBytes environmentFile
  let environment := environmentOfBytes (bytes.toOption.getD ByteArray.empty).toList
  let program := Program.ofName (← IO.appPath).fileName
  let outcome ← program.run machine environment words
  let output ← IO.getStdout
  output.putStr outcome.output
  output.flush
  match outcome.complaint with
  | some complaint => (← IO.getStderr).putStr (complaint ++ "\n")
  | none => pure ()
  pure outcome.code

end GraphShape.CommandLine

def main (words : List String) : IO UInt32 := GraphShape.CommandLine.start words
