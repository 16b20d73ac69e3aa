import GraphShape.Files.Fault

/-!
# Paths

A path is a text of names between slashes. One that starts with a slash starts at the root, and
any other one at the working directory.
-/

namespace GraphShape

/-- The names that lead from the root to a file or a directory. -/
abbrev Place := List String

namespace Path

def names (path : String) : List String :=
  ((path.toList.splitOn '/').filter (fun name => !name.isEmpty)).map String.ofList

def startsAtRoot (path : String) : Bool := path.toList.head? = some '/'

/-- Whether a path says that it leads to a directory. -/
def endsInSlash (path : String) : Bool := path.toList.getLast? = some '/'

def nameLimit : Nat := 255

def limit : Nat := 4095

/-- A path has no zero byte in it, and it is not longer than the operating system takes. -/
def check (path : String) : Except FileFault Unit :=
  if path.toList.any (fun ch => ch.val = 0) then .error .zeroByte
  else if limit < path.utf8ByteSize then .error .nameTooLong
  else .ok ()

def join (directory file : String) : String :=
  if directory.isEmpty || endsInSlash directory then directory ++ file
  else directory ++ "/" ++ file

/-- The way from a directory to a place, both seen from the root. -/
def between : Place → Place → List String
  | name :: directory, next :: place =>
    if name = next then between directory place
    else ((name :: directory).map (fun _ => "..")) ++ next :: place
  | directory, place => directory.map (fun _ => "..") ++ place

/-- A place as a reader in a directory is shown it: the way to it, unless that is no shorter than
the path from the root. -/
def shown (directory place : Place) : String :=
  let way := between directory place
  if way.length ≤ place.length then "/".intercalate way else "/" ++ "/".intercalate place

end Path

end GraphShape
