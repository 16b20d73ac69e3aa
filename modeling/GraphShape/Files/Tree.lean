import GraphShape.Files.Path

/-!
# File trees

A file tree says what is at each place, and which directory is the working directory. Reading
changes nothing, and every other operation changes the places that it names and no other one.
-/

namespace GraphShape

inductive FileEntry where
  | directory
  | file (bytes : ByteArray)

structure FileTree where
  at? : Place → Option FileEntry
  /-- The working directory. -/
  here : Place

namespace FileTree

/-- Only the working directory and those above it. -/
def empty (here : Place) : FileTree :=
  ⟨fun p => if p <+: here then some .directory else none, here⟩

def put (t : FileTree) (place : Place) (e : FileEntry) : FileTree :=
  { t with at? := fun p => if p = place then some e else t.at? p }

@[simp] theorem at?_put_self (t : FileTree) (place : Place) (e : FileEntry) :
    (t.put place e).at? place = some e := by
  simp [put]

theorem at?_put_of_ne (t : FileTree) {place other : Place} (e : FileEntry) (h : other ≠ place) :
    (t.put place e).at? other = t.at? other := by
  simp [put, h]

@[simp] theorem here_put (t : FileTree) (place : Place) (e : FileEntry) :
    (t.put place e).here = t.here := rfl

/-! ## Following a path -/

/-- Where a path leads. -/
inductive Target where
  | directory (place : Place)
  | file (place : Place) (bytes : ByteArray)
  /-- Nothing is there, but the directory that it would be in is. -/
  | vacant (place : Place)

def follow (t : FileTree) : Place → List String → Except FileFault Target
  | place, [] => .ok (.directory place)
  | place, name :: rest =>
    if name = "." then follow t place rest
    else if name = ".." then follow t place.dropLast rest
    else if Path.nameLimit < name.utf8ByteSize then .error .nameTooLong
    else
      match t.at? (place ++ [name]) with
      | some .directory => follow t (place ++ [name]) rest
      | some (.file bytes) =>
        if rest.isEmpty then .ok (.file (place ++ [name]) bytes) else .error .notADirectory
      | none => if rest.isEmpty then .ok (.vacant (place ++ [name])) else .error .notFound

def start (t : FileTree) (path : String) : Place := if Path.startsAtRoot path then [] else t.here

def find (t : FileTree) (path : String) : Except FileFault Target := do
  Path.check path
  if path.isEmpty then .error .notFound
  else
    t.follow (t.start path) (Path.names path ++ if Path.endsInSlash path then ["."] else [])

/-! ## Operations -/

def isFile (t : FileTree) (path : String) : Bool :=
  match t.find path with
  | .ok (.file ..) => true
  | _ => false

def read (t : FileTree) (path : String) : Except FileFault String :=
  match t.find path with
  | .ok (.file _ bytes) => textOfBytes bytes
  | .ok (.directory _) => .error .isADirectory
  | .ok (.vacant _) => .error .notFound
  | .error fault => .error fault

/-- Changes the bytes of a file, which are none when the file is new. -/
def change (t : FileTree) (path : String) (f : ByteArray → ByteArray) :
    Except FileFault FileTree := do
  Path.check path
  if path.isEmpty then .error .notFound
  else
    match t.follow (t.start path) (Path.names path) with
    | .error fault => .error fault
    | .ok (.directory _) => .error .isADirectory
    | .ok (.file place bytes) =>
      if Path.endsInSlash path then .error .isADirectory
      else .ok (t.put place (.file (f bytes)))
    | .ok (.vacant place) =>
      if Path.endsInSlash path then .error .isADirectory
      else .ok (t.put place (.file (f ByteArray.empty)))

def write (t : FileTree) (path text : String) : Except FileFault FileTree :=
  t.change path (fun _ => text.toUTF8)

def append (t : FileTree) (path text : String) : Except FileFault FileTree :=
  t.change path (fun bytes => bytes ++ text.toUTF8)

/-- Makes the directories that names lead through from a directory, as far as they are missing. -/
def makeFrom (t : FileTree) : Place → List String → Except FileFault FileTree
  | _, [] => .ok t
  | place, name :: rest =>
    if name = "." then makeFrom t place rest
    else if name = ".." then makeFrom t place.dropLast rest
    else if Path.nameLimit < name.utf8ByteSize then .error .nameTooLong
    else
      match t.at? (place ++ [name]) with
      | some .directory => makeFrom t (place ++ [name]) rest
      | some (.file _) => .error (if rest.isEmpty then .alreadyExists else .notADirectory)
      | none => makeFrom (t.put (place ++ [name]) .directory) (place ++ [name]) rest

def makeDirectories (t : FileTree) (path : String) : Except FileFault FileTree := do
  Path.check path
  t.makeFrom (t.start path) (Path.names path)

end FileTree

end GraphShape
