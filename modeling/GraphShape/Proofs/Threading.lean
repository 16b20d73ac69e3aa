import GraphShape.Proofs.Termination

/-!
# Walks that keep the references themselves

A conversion hands one set of references and one log from walk to walk, and every walk adds to them.
Here the walks are written so. The key fact is that keeping what a walk mentions and reports
commutes with one walk after the other, so these walks are the ones that only list their mentions,
and this conversion is the same one.
-/

namespace GraphShape

/-- What walks add to. -/
structure Ledger where
  references : References
  events : List Event

/-- A result or a stop, and what was added until then. -/
abbrev Threaded (α : Type) := ExceptT Stop (StateM Ledger) α

namespace References

/-- An object type that is there stays. -/
def insert (references : References) (o : ObjectType) : References :=
  Members.putNew references o.name o

theorem record_append (references : References) (os others : List ObjectType) :
    references.record (os ++ others) = (references.record os).record others := List.foldl_append

end References

namespace Threaded

variable {α : Type}

def run (x : Threaded α) (ledger : Ledger) : Except Stop α × Ledger :=
  Id.run (StateT.run (ExceptT.run x) ledger)

def insert (o : ObjectType) : Threaded Unit :=
  modify (fun l => { l with references := l.references.insert o })

def note (e : Event) : Threaded Unit := modify (fun l => { l with events := l.events ++ [e] })

theorem run_bind_of_ok {β : Type} {x : Threaded α} {ledger later : Ledger} {a : α}
    (f : α → Threaded β) (h : x.run ledger = (.ok a, later)) :
    (x >>= f).run ledger = (f a).run later := by
  simp only [run, bind, ExceptT.bind, ExceptT.mk, ExceptT.run, StateT.run, StateT.bind, Id.run]
    at h ⊢
  rw [h]
  rfl

theorem run_bind_of_error {β : Type} {x : Threaded α} {ledger later : Ledger} {s : Stop}
    (f : α → Threaded β) (h : x.run ledger = (.error s, later)) :
    (x >>= f).run ledger = (.error s, later) := by
  simp only [run, bind, ExceptT.bind, ExceptT.mk, ExceptT.run, StateT.run, StateT.bind, Id.run]
    at h ⊢
  rw [h]
  rfl

theorem run_get (ledger : Ledger) : (get : Threaded Ledger).run ledger = (.ok ledger, ledger) := rfl

theorem ext {x y : Threaded α} (h : ∀ ledger, x.run ledger = y.run ledger) : x = y := funext h

end Threaded

/-! ## What a walk leaves behind -/

namespace Walk

variable {α β : Type}

/-- The walk that adds what it mentions and reports. -/
def keep (w : Walk α) : Threaded α :=
  ExceptT.mk (fun l => (w.outcome, ⟨l.references.record w.mentions, l.events ++ w.events⟩))

theorem run_keep (w : Walk α) (ledger : Ledger) :
    w.keep.run ledger =
      (w.outcome, ⟨ledger.references.record w.mentions, ledger.events ++ w.events⟩) := rfl

theorem keep_pure (a : α) : (pure a : Walk α).keep = pure a := by
  apply Threaded.ext
  intro l
  rw [run_keep, pure_eq, List.append_nil]
  rfl

theorem keep_bind (x : Walk α) (f : α → Walk β) :
    (x >>= f).keep = x.keep >>= fun a => (f a).keep := by
  apply Threaded.ext
  intro l
  have hx := run_keep x l
  show (Walk.bind x f).keep.run l = _
  rw [run_keep, Walk.bind]
  cases houtcome : x.outcome with
  | error s =>
    rw [houtcome] at hx
    exact (Threaded.run_bind_of_error _ hx).symm
  | ok a =>
    rw [houtcome] at hx
    rw [Threaded.run_bind_of_ok _ hx, run_keep]
    simp only [References.record_append, List.append_assoc]

theorem keep_each (f : α → Walk β) (xs : List α) :
    (each f xs).keep = xs.mapM (fun x => (f x).keep) := by
  induction xs with
  | nil => exact keep_pure []
  | cons x rest ih =>
    simp only [each_cons, List.mapM_cons, keep_bind, keep_pure, ih]

theorem keep_stop (s : Stop) : (stop s : Walk α).keep = throw s := by
  apply Threaded.ext
  intro l
  rw [run_keep, stop, List.append_nil]
  rfl

theorem keep_mention (o : ObjectType) : (mention o).keep = Threaded.insert o := by
  apply Threaded.ext
  intro l
  rw [run_keep, mention, List.append_nil]
  rfl

theorem keep_report (e : Event) : (report e).keep = Threaded.note e := rfl

end Walk

/-! ## Nodes of the type graph -/

/-- What a type reference stands for. -/
inductive TypeNode where
  | object (o : ObjectType)
  | union (members : List String)
  | scalar (name : String)
  | enum (name : String) (values : List String)
  | list (item : TypeRef)

namespace TypeNode

def named (types : TypeMap) (name : String) : Except Stop TypeNode :=
  match types.get? name with
  | some (.object o) => .ok (object o)
  | some (.union _ members) => .ok (union members)
  | some (.scalar _) => .ok (scalar name)
  | some (.enum e values) => .ok (enum e values)
  | some (.interface _) => .error (.problem (.unsupportedKind name "interface"))
  | some (.input _) => .error (.problem (.unsupportedKind name "input object"))
  | none => .error (.problem (.unknownType name))

def resolve (types : TypeMap) : TypeRef → Except Stop TypeNode
  | .named name _ => named types name
  | .list item _ => .ok (list item)

end TypeNode

namespace Converter

variable {c : Converter} {depth : Nat}

/-! ## Walks -/

def scalarIn (c : Converter) (name : String) : Threaded Schema :=
  match primitiveTypes.get? name with
  | some type => pure (Schema.primitive type)
  | none =>
    match c.scalars with
    | none => do
      Threaded.note (.scalarUnconstrained name)
      pure Schema.empty
    | some map =>
      match map.get? name with
      | some s => pure s
      | none => do
        Threaded.note (.scalarMissing name)
        pure Schema.empty

/-- The schema of a node, with a way to walk the references in it. -/
def nodeWith (c : Converter) (type : TypeRef → Threaded Schema) : TypeNode → Threaded Schema
  | .object o => do
    Threaded.insert o
    pure (c.mentioned o)
  | .union members => do
    let choices ← members.mapM (fun member => type (.named member false))
    pure (Schema.oneOf choices)
  | .scalar name => c.scalarIn name
  | .enum name values => pure (Schema.enumeration name values)
  | .list item => do
    let s ← type item
    pure (Schema.array (Schema.item item.nonNull s))

/-- The schema of a type reference. The first argument bounds the nesting that is followed. -/
def typeIn (c : Converter) : Nat → TypeRef → Threaded Schema
  | 0, _ => throw .tooDeep
  | depth + 1, t => do
    let node ← ExceptT.mk (pure (TypeNode.resolve c.types t))
    c.nodeWith (typeIn c depth) node

def nodeIn (c : Converter) (depth : Nat) (node : TypeNode) : Threaded Schema :=
  c.nodeWith (c.typeIn depth) node

def propertyIn (c : Converter) (depth : Nat) (f : Field) : Threaded Schema := do
  let s ← c.typeIn depth f.type
  pure (c.describe f.description (s.put "title" (.string f.name)))

def objectIn (c : Converter) (depth : Nat) (o : ObjectType) : Threaded Schema := do
  let schemas ← o.fields.mapM (c.propertyIn depth)
  pure (c.describe o.description (Schema.shape (properties o schemas) (requiredNames o.fields)))

/-! ### They are the walks that list their mentions -/

theorem keep_scalar (c : Converter) (name : String) : (c.scalar name).keep = c.scalarIn name := by
  unfold scalar scalarIn
  cases primitiveTypes.get? name with
  | some type => exact Walk.keep_pure _
  | none =>
    cases c.scalars with
    | none => simp only [Walk.keep_bind, Walk.keep_report, Walk.keep_pure]
    | some map =>
      cases hmap : map.get? name with
      | some s => simp only [hmap, Walk.keep_pure]
      | none => simp only [hmap, Walk.keep_bind, Walk.keep_report, Walk.keep_pure]

/-- The walk of a node in the terms of the walks of references. -/
def node (c : Converter) (depth : Nat) : TypeNode → Walk Schema
  | .object o => do
    Walk.mention o
    pure (c.mentioned o)
  | .union members => do
    let choices ← Walk.each (fun member => c.fragment depth (.named member false)) members
    pure (Schema.oneOf choices)
  | .scalar name => c.scalar name
  | .enum name values => pure (Schema.enumeration name values)
  | .list item => do
    let s ← c.fragment depth item
    pure (Schema.array (Schema.item item.nonNull s))

theorem fragment_resolve (c : Converter) (depth : Nat) (t : TypeRef) :
    c.fragment (depth + 1) t =
      match TypeNode.resolve c.types t with
      | .error s => Walk.stop s
      | .ok node => c.node depth node := by
  cases t with
  | list item b => rfl
  | named n b =>
    rw [fragment, TypeNode.resolve, TypeNode.named]
    cases c.types.get? n with
    | none => rfl
    | some d => cases d <;> rfl

theorem keep_node_of (hfragment : ∀ t, (c.fragment depth t).keep = c.typeIn depth t)
    (node : TypeNode) : (c.node depth node).keep = c.nodeIn depth node := by
  cases node with
  | object o =>
    simp only [Converter.node, nodeIn, nodeWith, Walk.keep_bind, Walk.keep_mention, Walk.keep_pure]
  | union members =>
    simp only [Converter.node, nodeIn, nodeWith, Walk.keep_bind, Walk.keep_each, Walk.keep_pure,
      hfragment]
  | scalar name => exact c.keep_scalar name
  | enum name values => exact Walk.keep_pure _
  | list item =>
    simp only [Converter.node, nodeIn, nodeWith, Walk.keep_bind, Walk.keep_pure, hfragment]

theorem keep_fragment (c : Converter) (depth : Nat) (t : TypeRef) :
    (c.fragment depth t).keep = c.typeIn depth t := by
  induction depth generalizing t with
  | zero => exact Walk.keep_stop _
  | succ depth ih =>
    rw [fragment_resolve, typeIn]
    cases TypeNode.resolve c.types t with
    | error s => exact Walk.keep_stop s
    | ok node => exact keep_node_of ih node

theorem keep_node (c : Converter) (depth : Nat) (node : TypeNode) :
    (c.node depth node).keep = c.nodeIn depth node := keep_node_of (c.keep_fragment depth) node

theorem keep_shape (c : Converter) (depth : Nat) (o : ObjectType) :
    (c.shape depth o).keep = c.objectIn depth o := by
  have hproperty : ∀ f, (c.property depth f).keep = c.propertyIn depth f := by
    intro f
    simp only [property, propertyIn, Walk.keep_bind, Walk.keep_pure, keep_fragment]
  simp only [shape, objectIn, Walk.keep_bind, Walk.keep_each, Walk.keep_pure, hproperty]

theorem run_objectIn (c : Converter) (depth : Nat) (o : ObjectType) (ledger : Ledger) :
    (c.objectIn depth o).run ledger = ((c.shape depth o).outcome,
      ⟨ledger.references.record (c.shape depth o).mentions,
        ledger.events ++ (c.shape depth o).events⟩) := by
  rw [← keep_shape, Walk.run_keep]

/-! ## The loop -/

/-- One turn of the loop. The reference behind the last definition gets one, if there is such a
reference. -/
def turn (c : Converter) (depth : Nat) (definitions : Members Schema) :
    Threaded (Option (Members Schema)) := do
  let ledger ← get
  match ledger.references[definitions.length]? with
  | none =>
    Threaded.note (.converted ledger.references.length)
    pure none
  | some (_, o) =>
    Threaded.note (.converting o.name)
    let s ← c.objectIn depth o
    pure (some (definitions.put o.name s))

/-- Turns until there is no reference without a definition. -/
def discoverIn (c : Converter) (depth : Nat) : Nat → Members Schema → Threaded (Members Schema)
  | 0, _ => throw .tooDeep
  | n + 1, definitions => do
    match ← c.turn depth definitions with
    | none => pure definitions
    | some later => discoverIn c depth n later

def convertIn (c : Converter) (root : ObjectType) : Traced Schema :=
  let (outcome, ledger) := (c.discoverIn (c.depth (some root)) (c.types.objects.length + 2) []).run
    ⟨References.seeded root, []⟩
  ⟨ledger.events, outcome.map assemble⟩

variable {definitions : Members Schema} {ledger : Ledger}

theorem run_turn_of_none (h : ledger.references[definitions.length]? = none) :
    (c.turn depth definitions).run ledger =
      (.ok none, { ledger with
        events := ledger.events ++ [.converted ledger.references.length] }) := by
  rw [turn, Threaded.run_bind_of_ok _ (Threaded.run_get ledger), h]
  rfl

theorem run_turn_of_some (c : Converter) (depth : Nat) {n : String} {o : ObjectType}
    (h : ledger.references[definitions.length]? = some (n, o)) :
    (c.turn depth definitions).run ledger =
      ((c.shape depth o).outcome.map (fun s => some (definitions.put o.name s)),
        ⟨ledger.references.record (c.shape depth o).mentions,
          ledger.events ++ c.round depth o⟩) := by
  have hnoted : (c.turn depth definitions).run ledger =
      (c.objectIn depth o >>= fun s => pure (some (definitions.put o.name s))).run
        { ledger with events := ledger.events ++ [.converting o.name] } := by
    rw [turn, Threaded.run_bind_of_ok _ (Threaded.run_get ledger), h]
    rfl
  have hobject := c.run_objectIn depth o
    { ledger with events := ledger.events ++ [.converting o.name] }
  simp only [List.append_assoc, List.cons_append, List.nil_append] at hobject
  rw [hnoted, round]
  cases hwalk : (c.shape depth o).outcome with
  | error s =>
    rw [hwalk] at hobject
    exact Threaded.run_bind_of_error _ hobject
  | ok s =>
    rw [hwalk] at hobject
    rw [Threaded.run_bind_of_ok _ hobject]
    rfl

theorem run_discoverIn (c : Converter) (depth n : Nat) (definitions : Members Schema)
    (ledger : Ledger) :
    ((c.discoverIn depth n definitions).run ledger).1 =
        (c.discover depth n ⟨ledger.references, definitions⟩).outcome.map Progress.definitions ∧
      ((c.discoverIn depth n definitions).run ledger).2.events =
        ledger.events ++ (c.discover depth n ⟨ledger.references, definitions⟩).events := by
  induction n generalizing definitions ledger with
  | zero => exact ⟨rfl, (List.append_nil _).symm⟩
  | succ n ih =>
    rw [discover, discoverIn]
    cases hnext : ledger.references[definitions.length]? with
    | none =>
      rw [Threaded.run_bind_of_ok _ (run_turn_of_none hnext)]
      exact ⟨rfl, rfl⟩
    | some r =>
      obtain ⟨name, o⟩ := r
      have hturn := run_turn_of_some c depth hnext
      cases hwalk : (c.shape depth o).outcome with
      | error s =>
        rw [hwalk] at hturn
        rw [Threaded.run_bind_of_error _ hturn]
        simp only [hwalk]
        exact ⟨rfl, rfl⟩
      | ok s =>
        rw [hwalk] at hturn
        rw [Threaded.run_bind_of_ok _ hturn]
        simp only [hwalk]
        obtain ⟨houtcome, hevents⟩ := ih (definitions.put o.name s) _
        refine ⟨houtcome, hevents.trans ?_⟩
        simp only [round, List.append_assoc, List.cons_append]

/-- The conversion that threads the references is the conversion. -/
theorem convertIn_eq (c : Converter) (root : ObjectType) : c.convertIn root = c.convert root := by
  obtain ⟨houtcome, hevents⟩ := c.run_discoverIn (c.depth (some root))
    (c.types.objects.length + 2) [] ⟨References.seeded root, []⟩
  simp only [convertIn, convert, houtcome, hevents, List.nil_append]
  cases (c.discover (c.depth (some root)) (c.types.objects.length + 2)
    ⟨References.seeded root, []⟩).outcome <;> rfl

end Converter

end GraphShape
