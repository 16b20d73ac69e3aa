import GraphShape.Members
import GraphShape.Yaml.Token

/-!
# YAML nodes

The tree that tokens stand for. Nodes with an anchor are numbered, and an alias holds the number
that its name has at that place. What a number stands for is known only at the end: when an anchor's
name is given again, the count of names no longer grows, so a later anchor may get the number of an
earlier one and takes it over.
-/

namespace GraphShape.Yaml

inductive Node where
  | alias (number : Nat)
  | scalar (tag : Option TagBytes) (plain : Bool) (text : String)
  | list (tag : Option TagBytes) (items : List Node)
  | map (tag : Option TagBytes) (entries : List (Node × Node))
  deriving Repr

namespace Node

instance : Inhabited Node := ⟨scalar none true ""⟩

/-- What stands where nothing is written. -/
def empty : Node := scalar none true ""

mutual

/-- The events of a node: one for an alias or a scalar, and two around what a list or a mapping
holds. -/
def events : Node → Nat
  | .alias _ => 1
  | .scalar _ _ _ => 1
  | .list _ items => itemEvents items + 2
  | .map _ entries => entryEvents entries + 2

def itemEvents : List Node → Nat
  | [] => 0
  | item :: rest => item.events + itemEvents rest

def entryEvents : List (Node × Node) → Nat
  | [] => 0
  | (key, value) :: rest => key.events + value.events + entryEvents rest

end

end Node

/-! ## Anchors -/

structure Anchors where
  /-- The numbers of names. -/
  names : Members Nat
  /-- The numbers of the nodes with an anchor, the last first. -/
  started : List Nat
  /-- The nodes that are complete, by their places among those with an anchor. -/
  nodes : List (Nat × Node)

namespace Anchors

def empty : Anchors := ⟨[], [], []⟩

def start (a : Anchors) (name : String) : Anchors :=
  { a with names := a.names.put name a.names.length, started := a.names.length :: a.started }

def complete (a : Anchors) (place : Nat) (node : Node) : Anchors :=
  { a with nodes := (place, node) :: a.nodes }

/-- The node that a number stands for: the last one that got it. -/
def node? (a : Anchors) (number : Nat) : Option Node := do
  let behind ← a.started.findIdx? (· = number)
  let found ← a.nodes.find? (fun n => n.1 + behind + 1 = a.started.length)
  some found.2

end Anchors

/-! ## Composing -/

/-- The tokens left, the anchors met and the handles for tags. -/
structure Composer where
  tokens : List Token
  anchors : Anchors
  handles : Members TagBytes

/-- Takes tokens from the front, or fails. -/
abbrev Compose := StateT Composer Option

namespace Compose

variable {α : Type}

def peek : Compose (Option Token) := fun s => some (s.tokens.head?, s)

def skip : Compose Unit := fun s => some ((), { s with tokens := s.tokens.drop 1 })

def accept (t : Token) : Compose Bool := do
  if (← peek) = some t then do skip; pure true
  else pure false

def expect (t : Token) : Compose Unit := do
  if ← accept t then pure () else failure

def sees (ts : List Token) : Compose Bool := do
  match ← peek with
  | some t => pure (ts.contains t)
  | none => pure false

/-! ## Tags and anchors -/

/-- The handles that need no directive. -/
def standardHandles : Members TagBytes :=
  [("!", "!".toUTF8.toList), ("!!", "tag:yaml.org,2002:".toUTF8.toList)]

def resolveTag (handle : String) (suffix : TagBytes) : Compose TagBytes := fun s =>
  if handle.isEmpty then some (suffix, s)
  else (s.handles.get? handle).map (fun expansion => (expansion ++ suffix, s))

def acceptTag : Compose (Option TagBytes) := do
  match ← peek with
  | some (.tag handle suffix) => do
    skip
    let tag ← resolveTag handle suffix
    pure (some tag)
  | _ => pure none

def acceptAnchor : Compose (Option String) := do
  match ← peek with
  | some (.anchor name) => do skip; pure (some name)
  | _ => pure none

/-- An anchor and a tag, in either order. -/
def properties : Compose (Option String × Option TagBytes) := do
  match ← acceptAnchor with
  | some anchor => do
    let tag ← acceptTag
    pure (some anchor, tag)
  | none => do
    match ← acceptTag with
    | some tag => do
      let anchor ← acceptAnchor
      pure (anchor, some tag)
    | none => pure (none, none)

/-- Numbers a node with an anchor, and gives its place among those. -/
def startAnchor (name : String) : Compose Nat := fun s =>
  some (s.anchors.started.length, { s with anchors := s.anchors.start name })

def completeAnchor (place : Nat) (node : Node) : Compose Unit := fun s =>
  some ((), { s with anchors := s.anchors.complete place node })

/-- The alias of a name, which has to be known. -/
def aliasOf (name : String) : Compose Node := fun s =>
  (s.anchors.names.get? name).map (fun number => (.alias number, s))

/-! ## Nodes -/

/-- Where a node stands: whether blocks may start there, and whether a list may do without its own
indentation. -/
structure Place where
  block : Bool
  bareList : Bool

def inBlock : Place := ⟨true, false⟩

def inBlockMap : Place := ⟨true, true⟩

def inBrackets : Place := ⟨false, false⟩

mutual

/-- A node. The first argument bounds the steps. -/
def node : Nat → Place → Compose Node
  | 0, _ => failure
  | n + 1, place => do
    match ← peek with
    | some (.alias name) => do skip; aliasOf name
    | _ => do
      match ← properties with
      | (some anchor, tag) => do
        let start ← startAnchor anchor
        let result ← content n place true tag
        completeAnchor start result
        pure result
      | (none, tag) => content n place false tag

/-- What follows the properties of a node. A node with properties may be empty. -/
def content : Nat → Place → Bool → Option TagBytes → Compose Node
  | 0, _, _, _ => failure
  | n + 1, place, anchored, tag => do
    match ← peek with
    | some .entry =>
      if place.bareList then do
        let items ← bareEntries n
        pure (.list tag items)
      else if anchored || tag.isSome then pure (.scalar tag true "")
      else failure
    | some (.scalar plain text) => do skip; pure (.scalar tag plain text)
    | some .flowListStart => do
      skip
      let items ← flowItems n true
      pure (.list tag items)
    | some .flowMapStart => do
      skip
      let entries ← flowEntries n true
      pure (.map tag entries)
    | some .blockList =>
      if place.block then do
        skip
        let items ← blockEntries n
        pure (.list tag items)
      else if anchored || tag.isSome then pure (.scalar tag true "")
      else failure
    | some .blockMap =>
      if place.block then do
        skip
        let entries ← blockPairs n
        pure (.map tag entries)
      else if anchored || tag.isSome then pure (.scalar tag true "")
      else failure
    | _ => if anchored || tag.isSome then pure (.scalar tag true "") else failure

/-- A node, unless one of some tokens shows that there is none. -/
def nodeUnless : Nat → Place → List Token → Compose Node
  | 0, _, _ => failure
  | n + 1, place, ends => do
    if (← peek).isNone || (← sees ends) then pure Node.empty else node n place

def blockEntries : Nat → Compose (List Node)
  | 0 => failure
  | n + 1 => do
    if ← accept .entry then do
      let item ← nodeUnless n inBlock [.entry, .blockEnd]
      let rest ← blockEntries n
      pure (item :: rest)
    else do
      expect .blockEnd
      pure []

/-- The items of a list that is indented as the mapping it is in. -/
def bareEntries : Nat → Compose (List Node)
  | 0 => failure
  | n + 1 => do
    if ← accept .entry then do
      let item ← nodeUnless n inBlock [.entry, .key, .value, .blockEnd]
      let rest ← bareEntries n
      pure (item :: rest)
    else pure []

/-- The value behind a colon, if there is one. -/
def valueUnless : Nat → Place → List Token → Compose Node
  | 0, _, _ => failure
  | n + 1, place, ends => do
    if ← accept .value then nodeUnless n place ends else pure Node.empty

def blockPairs : Nat → Compose (List (Node × Node))
  | 0 => failure
  | n + 1 => do
    if ← accept .key then do
      let key ← nodeUnless n inBlockMap [.key, .value, .blockEnd]
      let value ← valueUnless n inBlockMap [.key, .value, .blockEnd]
      let rest ← blockPairs n
      pure ((key, value) :: rest)
    else do
      expect .blockEnd
      pure []

/-- The key of a mapping of one entry, inside brackets and behind its own mark. The token that shows
that there is none goes with it. -/
def singleKey : Nat → Compose Node
  | 0 => failure
  | n + 1 => do
    if ← sees [.value, .flowEntry, .flowListEnd] then do skip; pure Node.empty
    else node n inBrackets

/-- The items of a list in brackets. A key among them starts a mapping of one entry. -/
def flowItems : Nat → Bool → Compose (List Node)
  | 0, _ => failure
  | n + 1, first => do
    if ← accept .flowListEnd then pure []
    else do
      if first then pure () else expect .flowEntry
      if ← accept .key then do
        let key ← singleKey n
        let value ← valueUnless n inBrackets [.flowEntry, .flowListEnd]
        let rest ← flowItems n false
        pure (.map none [(key, value)] :: rest)
      else if ← accept .flowListEnd then pure []
      else do
        let item ← node n inBrackets
        let rest ← flowItems n false
        pure (item :: rest)

def flowEntries : Nat → Bool → Compose (List (Node × Node))
  | 0, _ => failure
  | n + 1, first => do
    if ← accept .flowMapEnd then pure []
    else do
      if first then pure () else expect .flowEntry
      if ← accept .key then do
        let key ← nodeUnless n inBrackets [.value, .flowEntry, .flowMapEnd]
        let value ← valueUnless n inBrackets [.flowEntry, .flowMapEnd]
        let rest ← flowEntries n false
        pure ((key, value) :: rest)
      else if ← accept .flowMapEnd then pure []
      else do
        let key ← node n inBrackets
        let rest ← flowEntries n false
        pure ((key, Node.empty) :: rest)

end

/-! ## Documents -/

def isKnownVersion (major minor : Nat) : Bool := major = 1 && (minor = 1 || minor = 2)

/-- Directives in front of a document. The first argument bounds their number. -/
def directives : Nat → Bool → Members TagBytes → Compose (Members TagBytes)
  | 0, _, _ => failure
  | n + 1, versioned, handles => do
    match ← peek with
    | some (.version major minor) =>
      if versioned || !isKnownVersion major minor then failure
      else do skip; directives n true handles
    | some (.tagHandle handle expansion) =>
      if handles.has handle then failure
      else do skip; directives n versioned (handles.put handle expansion)
    | _ => pure handles

/-- Those of the document and the standard ones that it does not define. -/
def withStandard (handles : Members TagBytes) : Members TagBytes :=
  standardHandles.foldl (fun hs (name, expansion) => hs.putNew name expansion) handles

/-- The node of the only document, or none when there is no document. -/
def document : Compose (Option Node) := do
  let count := (← get).tokens.length
  let steps := 4 * count + 8
  match ← peek with
  | none => pure none
  | some first => do
    let explicit := match first with
      | .version _ _ => true
      | .tagHandle _ _ => true
      | .documentStart => true
      | _ => false
    let root ← (do
      if explicit then do
        let handles ← directives (count + 1) false []
        modify (fun s => { s with handles := withStandard handles })
        expect .documentStart
        nodeUnless steps inBlock [.documentStart, .documentEnd]
      else do
        modify (fun s => { s with handles := standardHandles })
        node steps inBlock : Compose Node)
    let _ ← accept .documentEnd
    -- Nothing but ends of documents may follow.
    if (← get).tokens.all (fun t => t = .documentEnd) then pure (some root) else failure

end Compose

/-- A document: its node, and what the aliases in it stand for. -/
structure Document where
  root : Node
  anchors : Anchors

/-- The document of a text, or none inside when the text is empty. -/
def compose? (text : String) : Option (Option Document) := do
  let tokens ← tokens? text.toList
  let (root, s) ← Compose.document ⟨tokens.toList, Anchors.empty, []⟩
  some (root.map (fun node => ⟨node, s.anchors⟩))

end GraphShape.Yaml
