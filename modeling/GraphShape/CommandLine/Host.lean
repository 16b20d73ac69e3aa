import GraphShape.Files.Tree
import GraphShape.Log.Dated
import GraphShape.Log.Record

/-!
# Hosts

What a run may do outside of itself: look at files, write them, and tell something. A scene is a
host in memory, on which everything about a run can be observed.
-/

namespace GraphShape.CommandLine

inductive Sink where
  | console
  | file (path : String)
  deriving DecidableEq, Repr

structure Host (m : Type → Type) where
  here : m Place
  now : m Moment
  isFile : String → m Bool
  read : String → m (Except FileFault String)
  write : String → String → m (Except FileFault Unit)
  makeDirectories : String → m (Except FileFault Unit)
  /-- Makes a log file unless it is there already. -/
  openLog : String → m (Except FileFault Unit)
  record : Sink → Log.Record → m Unit
  /-- Tells a line on the console. -/
  note : String → m Unit

/-- Files, what was told on the console line by line, and a time that stands still. -/
structure Scene where
  files : FileTree
  console : List String
  now : Moment

namespace Scene

/-- Keeps the files that an operation gives. -/
def keep (s : Scene) (result : Except FileFault FileTree) : Except FileFault Unit × Scene :=
  match result with
  | .ok files => (.ok (), { s with files := files })
  | .error fault => (.error fault, s)

def tell (s : Scene) (line : String) : Scene := { s with console := s.console ++ [line] }

/-- Adds a record to its sink. One that cannot be added is lost. -/
def record (s : Scene) (sink : Sink) (r : Log.Record) : Scene :=
  match sink with
  | .console => s.tell r.line
  | .file path => (s.keep (s.files.append path (r.line ++ "\n"))).2

end Scene

def Host.ofScene : Host (StateM Scene) where
  here s := (s.files.here, s)
  now s := (s.now, s)
  isFile path s := (s.files.isFile path, s)
  read path s := (s.files.read path, s)
  write path text s := s.keep (s.files.write path text)
  makeDirectories path s := s.keep (s.files.makeDirectories path)
  openLog path s := s.keep (s.files.append path "")
  record sink r s := ((), s.record sink r)
  note line s := ((), s.tell line)

end GraphShape.CommandLine
