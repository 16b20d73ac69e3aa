import GraphShape.CommandLine.Run
import GraphShape.Proofs.FileTrees

/-!
# Runs on a scene

Everything between the opening of the log and the delivery of the document only reads and logs. The
key fact is that such steps change nothing but the bytes of the log, so they find what was there
before, and two runs that log differently find the same.
-/

namespace GraphShape.CommandLine

variable {α β ε : Type}

namespace Run

/-- The result of a run on a scene, and the scene after it. -/
def onScene (r : Run (StateM Scene) α) (s : Scene) : Except Failure α × Scene := r.run.run s

theorem onScene_bind (r : Run (StateM Scene) α) (f : α → Run (StateM Scene) β) (s : Scene) :
    (r >>= f).onScene s =
      match r.onScene s with
      | (.ok a, s') => (f a).onScene s'
      | (.error e, s') => (.error e, s') := by
  rw [onScene, ExceptT.run_bind, StateT.run_bind]
  rcases hr : r.onScene s with ⟨e | a, s'⟩
  all_goals
    rw [onScene] at hr
    rw [hr]
    rfl

theorem onScene_act (action : StateM Scene α) (s : Scene) :
    (act action).onScene s = (.ok (action.run s).1, (action.run s).2) := rfl

theorem bind_of_ok {r : Run (StateM Scene) α} {s s' : Scene} {a : α}
    (h : r.onScene s = (.ok a, s')) (f : α → Run (StateM Scene) β) :
    (r >>= f).onScene s = (f a).onScene s' := by
  rw [onScene_bind, h]

theorem bind_of_error {r : Run (StateM Scene) α} {s s' : Scene} {e : Failure}
    (h : r.onScene s = (.error e, s')) (f : α → Run (StateM Scene) β) :
    (r >>= f).onScene s = (.error e, s') := by
  rw [onScene_bind, h]

theorem ok_of_run_bind {r : Run (StateM Scene) α} {f : α → Run (StateM Scene) β} {s : Scene} {b : β}
    (h : ((r >>= f).onScene s).1 = .ok b) :
    ∃ a, (r.onScene s).1 = .ok a ∧ ((f a).onScene (r.onScene s).2).1 = .ok b := by
  rcases hr : r.onScene s with ⟨x | a, s'⟩
  · rw [bind_of_error hr] at h
    cases h
  · rw [bind_of_ok hr] at h
    exact ⟨a, rfl, h⟩

theorem ok_of_ofExcept {failure : ε → Failure} {result : Except ε α} {s : Scene} {a : α}
    (h : ((ofExcept failure result).onScene s).1 = .ok a) : result = .ok a := by
  cases result with
  | error e => cases h
  | ok a' =>
    cases h
    rfl

theorem ok_of_read {failure : FileFault → Failure} {path text : String} {s : Scene}
    (h : ((ask failure (Host.ofScene.read path)).onScene s).1 = .ok text) :
    s.files.read path = .ok text :=
  ok_of_ofExcept (s := s) h

end Run

/-! ## Quiet steps -/

/-- Two scenes at the same time, with the same files but for the bytes in some places. -/
structure Scene.Alike (but : Place → Prop) (s₁ s₂ : Scene) : Prop where
  now : s₁.now = s₂.now
  files : s₁.files.Alike but s₂.files

namespace Scene.Alike

variable {but : Place → Prop} {s₁ s₂ s₃ : Scene}

theorem refl (but : Place → Prop) (s : Scene) : Alike but s s := ⟨rfl, .refl but s.files⟩

theorem symm (h : Alike but s₁ s₂) : Alike but s₂ s₁ := ⟨h.now.symm, h.files.symm⟩

theorem trans (h : Alike but s₁ s₂) (h' : Alike but s₂ s₃) : Alike but s₁ s₃ :=
  ⟨h.now.trans h'.now, h.files.trans h'.files⟩

end Scene.Alike

/-- What is logged can be: on the console, or in a file that is there. -/
def Sink.Ready (but : Place → Prop) (t : FileTree) : Sink → Prop
  | .console => True
  | .file path => but (t.place path) ∧ ∃ bytes,
      t.at? (t.place path) = some (.file bytes) ∧ t.Holds path bytes

section Quiet

variable {but : Place → Prop} {sink : Sink}

theorem record_quiet {s : Scene} (h : sink.Ready but s.files) (r : Log.Record) :
    s.Alike but (s.record sink r) ∧ sink.Ready but (s.record sink r).files := by
  cases sink with
  | console => exact ⟨⟨rfl, .refl but s.files⟩, trivial⟩
  | file path =>
    obtain ⟨hbut, bytes, hat, hholds⟩ := h
    have hkept : s.record (.file path) r =
        { s with
          files := s.files.put (s.files.place path)
            (.file (bytes ++ (r.line ++ "\n").toUTF8)) } := by
      rw [Scene.record, FileTree.append, hholds]
      rfl
    rw [hkept]
    refine ⟨⟨rfl, ?_⟩, hbut, _, FileTree.at?_put_self _ _ _, hholds.put _⟩
    exact FileTree.Alike.of_put hat hbut _

/-- Where the log is ready, nothing but its bytes changes. -/
def Run.Quiet (but : Place → Prop) (sink : Sink) (r : Run (StateM Scene) α) : Prop :=
  ∀ s, sink.Ready but s.files →
    s.Alike but (r.onScene s).2 ∧ sink.Ready but (r.onScene s).2.files

namespace Run.Quiet

theorem of_same {r : Run (StateM Scene) α} (h : ∀ s, (r.onScene s).2 = s) : Quiet but sink r := by
  intro s hready
  rw [h s]
  exact ⟨.refl but s, hready⟩

theorem bind {r : Run (StateM Scene) α} {f : α → Run (StateM Scene) β} (h : Quiet but sink r)
    (hf : ∀ a, Quiet but sink (f a)) : Quiet but sink (r >>= f) := by
  intro s hready
  obtain ⟨halike, hready'⟩ := h s hready
  rcases hr : r.onScene s with ⟨x | a, s'⟩
  · rw [hr] at halike hready'
    rw [bind_of_error hr]
    exact ⟨halike, hready'⟩
  · rw [hr] at halike hready'
    rw [bind_of_ok hr]
    obtain ⟨halike', hready''⟩ := hf a s' hready'
    exact ⟨halike.trans halike', hready''⟩

theorem pure (a : α) : Quiet but sink (pure a) := of_same fun _ => rfl

theorem ofExcept (failure : ε → Failure) (result : Except ε α) :
    Quiet but sink (ofExcept failure result) := of_same fun _ => rfl

theorem read (failure : FileFault → Failure) (path : String) :
    Quiet but sink (ask failure (Host.ofScene.read path)) := of_same fun _ => rfl

theorem log (l : Logger) (r : Log.Record) : Quiet but l.sink (act (l.log Host.ofScene r)) := by
  intro s hready
  rw [Logger.log]
  split
  · exact record_quiet hready r
  · exact ⟨.refl but s, hready⟩

theorem forM {ι : Type} {f : ι → StateM Scene PUnit} (h : ∀ i, Quiet but sink (act (f i)))
    (is : List ι) : Quiet but sink (act (is.forM f)) := by
  induction is with
  | nil => exact pure _
  | cons i is ih => exact (h i).bind fun _ => ih

end Run.Quiet

/-- Two runs in alike scenes give the same, whatever they log. -/
def Run.InStep (but : Place → Prop) (here : Place) (sink : Sink) (r₁ r₂ : Run (StateM Scene) α) :
    Prop :=
  ∀ s₁ s₂, s₁.files.here = here → s₁.Alike but s₂ → sink.Ready but s₁.files →
    sink.Ready but s₂.files → (r₁.onScene s₁).1 = (r₂.onScene s₂).1

namespace Run.InStep

variable {here : Place}

theorem ends {r₁ r₂ : Run (StateM Scene) α} (h : InStep but here sink r₁ r₂)
    (h₁ : Quiet but sink r₁) (h₂ : Quiet but sink r₂) {s₁ s₂ : Scene} (hhere : s₁.files.here = here)
    (halike : s₁.Alike but s₂) (hready₁ : sink.Ready but s₁.files)
    (hready₂ : sink.Ready but s₂.files) : ∃ result s₁' s₂',
      r₁.onScene s₁ = (result, s₁') ∧ r₂.onScene s₂ = (result, s₂') ∧ s₁'.files.here = here ∧
        s₁'.Alike but s₂' ∧ sink.Ready but s₁'.files ∧ sink.Ready but s₂'.files := by
  have hsame := h s₁ s₂ hhere halike hready₁ hready₂
  obtain ⟨halike₁, hready₁⟩ := h₁ s₁ hready₁
  obtain ⟨halike₂, hready₂⟩ := h₂ s₂ hready₂
  exact ⟨_, _, (r₂.onScene s₂).2, rfl, Prod.ext hsame.symm rfl, halike₁.files.here.symm.trans hhere,
    (halike₁.symm.trans halike).trans halike₂, hready₁, hready₂⟩

theorem bind {r₁ r₂ : Run (StateM Scene) α} {f₁ f₂ : α → Run (StateM Scene) β}
    (h : InStep but here sink r₁ r₂) (h₁ : Quiet but sink r₁) (h₂ : Quiet but sink r₂)
    (hf : ∀ a, InStep but here sink (f₁ a) (f₂ a)) :
    InStep but here sink (r₁ >>= f₁) (r₂ >>= f₂) := by
  intro s₁ s₂ hhere halike hready₁ hready₂
  obtain ⟨e | a, s₁', s₂', hr₁, hr₂, hhere', halike', hready₁', hready₂'⟩ :=
    h.ends h₁ h₂ hhere halike hready₁ hready₂
  · rw [bind_of_error hr₁, bind_of_error hr₂]
  · rw [bind_of_ok hr₁, bind_of_ok hr₂]
    exact hf a s₁' s₂' hhere' halike' hready₁' hready₂'

theorem of_same {r₁ r₂ : Run (StateM Scene) α} {result : Except Failure α}
    (h₁ : ∀ s, (r₁.onScene s).1 = result) (h₂ : ∀ s, (r₂.onScene s).1 = result) :
    InStep but here sink r₁ r₂ :=
  fun s₁ s₂ _ _ _ _ => (h₁ s₁).trans (h₂ s₂).symm

theorem act (action₁ action₂ : StateM Scene PUnit) :
    InStep but here sink (Run.act action₁) (Run.act action₂) :=
  fun _ _ _ _ _ _ => rfl

theorem pure (a : α) : InStep but here sink (pure a) (pure a) := of_same (fun _ => rfl) fun _ => rfl

theorem ofExcept (failure : ε → Failure) (result : Except ε α) :
    InStep but here sink (ofExcept failure result) (ofExcept failure result) :=
  of_same (fun _ => rfl) fun _ => rfl

theorem read {path : String} (h : ¬ but (Path.place here path)) (failure : FileFault → Failure) :
    InStep but here sink (ask failure (Host.ofScene.read path))
      (ask failure (Host.ofScene.read path)) := by
  intro s₁ s₂ hhere halike _ _
  subst hhere
  change (s₁.files.read path).mapError failure = (s₂.files.read path).mapError failure
  rw [halike.files.read h]

end Run.InStep

end Quiet

/-! ## Loading and converting -/

theorem some_of_elim_ok {o : Option α} {a : α} {e : ε}
    (h : o.elim (.error e) .ok = (.ok a : Except ε α)) : o = some a := by
  cases o with
  | none => cases h
  | some a' =>
    cases h
    rfl

section Prepare

variable {but : Place → Prop}

/-- Everything between the opening of the log and the delivery: a list of types, or a document. -/
def prepare {m : Type → Type} [Monad m] (host : Host m) (l : Logger) (c : Config)
    (listTypes : Bool) : Run m (String ⊕ Schema) := do
  Run.act (l.log host versionRecord)
  let types ← loadTypes host l c
  if listTypes then pure (.inl (typeList types))
  else
    let scalars ← loadScalars host l c
    let document ← convert host l c types scalars
    pure (.inr document)

section InStep

variable {here : Place} {sink : Sink} {c₁ c₂ : Config} (f₁ f₂ : Log.Filter)

end InStep

/-! ## What is loaded -/

/-- A text stands in the file of a path, unless the file may have been logged to. -/
def Tells (but : Place → Prop) (t : FileTree) (path text : String) : Prop :=
  ∃ bytes, textOfBytes bytes = .ok text ∧
    (¬ but (t.place path) → t.file? (t.place path) = some bytes)

/-- The types of the configured schema. -/
def TypesOf (but : Place → Prop) (t : FileTree) (c : Config) (types : TypeMap) : Prop :=
  ∃ path document, c.schema = some path ∧ Tells but t path document ∧
    TypeMap.ofDocument? document = some types

/-- The configured map of scalars, if one is configured. -/
def ScalarsOf (but : Place → Prop) (t : FileTree) (c : Config) (scalars : Option ScalarMap) :
    Prop :=
  match c.customScalars with
  | none => scalars = none
  | some path => ∃ text map, Tells but t path text ∧ ScalarMap.parse text = .ok map ∧
      scalars = some map

variable {s : Scene}

theorem Tells.before {made : Place → Prop} {t t' : FileTree} (hkept : t.Kept but made t')
    {path text : String} (h : Tells but t' path text) : Tells but t path text := by
  obtain ⟨bytes, htext, hbytes⟩ := h
  rw [hkept.place] at hbytes
  exact ⟨bytes, htext, fun hpath => (hkept.file? hpath).symm.trans (hbytes hpath)⟩

theorem TypesOf.before {made : Place → Prop} {t t' : FileTree} (hkept : t.Kept but made t')
    {c : Config} {types : TypeMap} (h : TypesOf but t' c types) : TypesOf but t c types := by
  obtain ⟨path, document, hpath, htells, htypes⟩ := h
  exact ⟨path, document, hpath, htells.before hkept, htypes⟩

theorem ScalarsOf.before {made : Place → Prop} {t t' : FileTree} (hkept : t.Kept but made t')
    {c : Config} {scalars : Option ScalarMap} (h : ScalarsOf but t' c scalars) :
    ScalarsOf but t c scalars := by
  rw [ScalarsOf] at h ⊢
  cases hpath : c.customScalars with
  | none =>
    rw [hpath] at h
    exact h
  | some path =>
    rw [hpath] at h
    obtain ⟨text, map, htells, hmap, hscalars⟩ := h
    exact ⟨text, map, htells.before hkept, hmap, hscalars⟩

theorem tells_of_read {path text : String} (h : s.files.read path = .ok text) :
    Tells but s.files path text := by
  obtain ⟨bytes, hbytes, htext⟩ := FileTree.read_ok h
  exact ⟨bytes, htext, fun _ => hbytes⟩

theorem loadTypes_ok {l : Logger} {c : Config} {types : TypeMap} (hready : l.sink.Ready but s.files)
    (h : ((loadTypes Host.ofScene l c).onScene s).1 = .ok types) : TypesOf but s.files c types := by
  obtain ⟨path, hpath, h⟩ := Run.ok_of_run_bind h
  obtain ⟨-, -, h⟩ := Run.ok_of_run_bind h
  obtain ⟨document, hread, h⟩ := Run.ok_of_run_bind h
  have hkept := (Run.Quiet.log l (schemaRecord path) s hready).1.files.kept fun _ => False
  exact ⟨path, document, some_of_elim_ok (Run.ok_of_ofExcept hpath),
    (tells_of_read (Run.ok_of_read hread)).before hkept, some_of_elim_ok (Run.ok_of_ofExcept h)⟩

theorem convert_ok {l : Logger} {c : Config} {types : TypeMap} {scalars : Option ScalarMap}
    {document : Schema}
    (h : ((convert Host.ofScene l c types scalars).onScene s).1 = .ok document) :
    (c.conversion types scalars).outcome = .ok document := by
  obtain ⟨-, -, h⟩ := Run.ok_of_run_bind h
  exact Run.ok_of_ofExcept h

/-- What is made of the configured files: a list of types, or a document. -/
def MadeOf (but : Place → Prop) (t : FileTree) (c : Config) : String ⊕ Schema → Prop
  | .inl text => ∃ types, TypesOf but t c types ∧ text = typeList types
  | .inr document => ∃ types scalars, TypesOf but t c types ∧ ScalarsOf but t c scalars ∧
      (c.conversion types scalars).outcome = .ok document

theorem MadeOf.before {made : Place → Prop} {t t' : FileTree} (hkept : t.Kept but made t')
    {c : Config} {x : String ⊕ Schema} (h : MadeOf but t' c x) : MadeOf but t c x := by
  cases x with
  | inl text =>
    obtain ⟨types, htypes, htext⟩ := h
    exact ⟨types, htypes.before hkept, htext⟩
  | inr document =>
    obtain ⟨types, scalars, htypes, hscalars, hdocument⟩ := h
    exact ⟨types, scalars, htypes.before hkept, hscalars.before hkept, hdocument⟩

end Prepare

end GraphShape.CommandLine
