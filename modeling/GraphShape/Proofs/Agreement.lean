import GraphShape.Proofs.Discovery

/-!
# The whole map and one root

Converting the whole map and converting one root after the other give the same shapes. The key
fact is that the shape of an object type depends on nothing that was found before, and that a
root of the map leaves the bound on the nesting as it is.
-/

namespace GraphShape

/-! ## The bound on the nesting -/

theorem foldl_max_of_mem {x : Nat} {l : List Nat} (h : x ∈ l) (a : Nat) :
    l.foldl max (max a x) = l.foldl max a := by
  induction l generalizing a with
  | nil => simp at h
  | cons y rest ih =>
    rw [List.foldl_cons, List.foldl_cons]
    rcases List.mem_cons.mp h with rfl | h
    · rw [Nat.max_assoc, Nat.max_self]
    · rw [show max (max a x) y = max (max a y) x by omega]
      exact ih h (max a y)

namespace Converter

theorem depth_root {c : Converter} {root : ObjectType} (h : root ∈ c.types.objects) :
    c.depth (some root) = c.depth none := by
  have hmem : nesting root ∈ c.types.objects.map nesting := List.mem_map_of_mem h
  rw [depth, depth]
  simp only [Option.toList_some, Option.toList_none, List.nil_append, List.singleton_append,
    List.map_cons, List.foldl_cons]
  rw [foldl_max_of_mem hmem]

/-! ## Walking the whole map -/

theorem defineAll_object (c : Converter) (depth : Nat) (name : String) (o : ObjectType)
    (rest : List (String × TypeDef)) (ds : Members Schema) {s : Schema}
    (h : (c.shape depth o).outcome = .ok s) :
    (c.defineAll depth ((name, .object o) :: rest) ds).outcome =
      (c.defineAll depth rest (ds.put name s)).outcome := by
  rw [defineAll]
  simp only [h]

theorem defineAll_other (c : Converter) (depth : Nat) {m : String × TypeDef}
    (rest : List (String × TypeDef)) (ds : Members Schema) (h : m.2.object? = none) :
    c.defineAll depth (m :: rest) ds = c.defineAll depth rest ds := by
  obtain ⟨name, d⟩ := m
  cases d <;> first | rfl | simp [TypeDef.object?] at h

variable {c : Converter} {depth : Nat}

/-- Object types with their shapes. -/
def Shaped (c : Converter) (depth : Nat) (os : List ObjectType) (ds : Members Schema) : Prop :=
  List.Forall₂ (fun (o : ObjectType) d => d.1 = o.name ∧ (c.shape depth o).outcome = .ok d.2) os ds

theorem defineAll_ok {types : TypeMap} (hl : types.Lawful) {ds all : Members Schema}
    (hnew : ∀ n ∈ Members.names types, n ∉ Members.names ds)
    (h : (c.defineAll depth types ds).outcome = .ok all) :
    ∃ new, all = ds ++ new ∧ c.Shaped depth types.objects new := by
  induction types using TypeMap.objects_induct generalizing ds with
  | nil =>
    rw [defineAll, Except.ok.injEq] at h
    exact ⟨[], by rw [← h, List.append_nil], List.Forall₂.nil⟩
  | other m rest hd ih =>
    rw [defineAll_other c depth rest ds hd] at h
    rw [TypeMap.objects_cons_other rest hd]
    exact ih hl.rest (fun n hn => hnew n (List.mem_cons_of_mem _ hn)) h
  | object name o rest ih =>
    obtain ⟨hhead, -⟩ := List.nodup_cons.mp hl.nodup
    have hname : o.name = name := hl.keyed _ List.mem_cons_self
    subst hname
    cases hwalk : (c.shape depth o).outcome with
    | error e => simp [defineAll, hwalk] at h
    | ok s =>
      rw [defineAll_object c depth o.name o rest ds hwalk,
        Members.put_of_not_mem _ (hnew _ List.mem_cons_self)] at h
      have hnew' : ∀ n ∈ Members.names rest, n ∉ Members.names (ds ++ [(o.name, s)]) := by
        intro n hn hmem
        rw [Members.names_append, List.mem_append] at hmem
        rcases hmem with hmem | hmem
        · exact hnew n (List.mem_cons_of_mem _ hn) hmem
        · rw [Members.names_cons, Members.names_nil, List.mem_singleton] at hmem
          exact hhead (hmem ▸ hn)
      obtain ⟨new, hall, hshaped⟩ := ih hl.rest hnew' h
      refine ⟨(o.name, s) :: new, by rw [hall, List.append_assoc, List.singleton_append], ?_⟩
      exact List.Forall₂.cons ⟨rfl, hwalk⟩ hshaped

theorem defineAll_succeeds (types : TypeMap) (ds : Members Schema)
    (h : ∀ o ∈ types.objects, ∃ s, (c.shape depth o).outcome = .ok s) :
    ∃ all, (c.defineAll depth types ds).outcome = .ok all := by
  induction types using TypeMap.objects_induct generalizing ds with
  | nil => exact ⟨ds, rfl⟩
  | other m rest hd ih =>
    rw [TypeMap.objects_cons_other rest hd] at h
    rw [defineAll_other c depth rest ds hd]
    exact ih ds h
  | object name o rest ih =>
    obtain ⟨s, hs⟩ := h o List.mem_cons_self
    rw [defineAll_object c depth name o rest ds hs]
    exact ih _ (fun o ho => h o (List.mem_cons_of_mem _ ho))

theorem definitions_ok (hl : c.types.Lawful) {all : Schema} (h : c.definitions.outcome = .ok all) :
    ∃ ds, all = (Schema.keywords []).put definitionsKey (definitionsJson ds) ∧
      c.Shaped (c.depth none) c.types.objects ds := by
  rw [definitions] at h
  cases hrun : (c.defineAll (c.depth none) c.types []).outcome with
  | error e => simp [hrun, Except.map] at h
  | ok ds =>
    simp only [hrun, Except.map, Except.ok.injEq] at h
    obtain ⟨new, hnew, hshaped⟩ := defineAll_ok hl (by simp) hrun
    rw [List.nil_append] at hnew
    exact ⟨new, by rw [← h, hnew]; rfl, hshaped⟩

theorem definitions_succeeds_iff (hl : c.types.Lawful) :
    (∃ all, c.definitions.outcome = .ok all) ↔
      ∀ o ∈ c.types.objects, ∃ s, (c.shape (c.depth none) o).outcome = .ok s := by
  constructor
  · rintro ⟨all, h⟩ o ho
    obtain ⟨ds, -, hshaped⟩ := definitions_ok hl h
    obtain ⟨d, -, -, hs⟩ := forall₂_mem_left hshaped ho
    exact ⟨d.2, hs⟩
  · intro h
    obtain ⟨ds, hds⟩ := defineAll_succeeds c.types [] h
    rw [definitions, hds]
    exact ⟨_, rfl⟩

/-! ## Walking from a root -/

theorem Found.length_references_le {root : ObjectType} {p : Progress} (hl : c.types.Lawful)
    (h : c.Found depth root p) : p.references.length ≤ c.types.objects.length + 1 := by
  have hsub : ∀ n ∈ Members.names p.references,
      n ∈ root.name :: c.types.objects.map ObjectType.name := by
    intro n hn
    obtain ⟨r, hr, rfl⟩ := List.mem_map.mp hn
    obtain ⟨hobject, hname⟩ := h.stored r hr
    by_cases hroot : r.1 = root.name
    · rw [hroot]
      exact List.mem_cons_self
    · apply List.mem_cons_of_mem
      rw [← hname]
      apply List.mem_map_of_mem
      exact hl.mem_objects_of_get? (TypeMap.get?_of_objectFrom hroot hobject)
  have hle := (h.nodup.subperm hsub).length_le
  rw [Members.names, List.length_map, List.length_cons, List.length_map] at hle
  exact hle

/-- What is logged when an object type is walked. -/
def round (c : Converter) (depth : Nat) (o : ObjectType) : List Event :=
  .converting o.name :: (c.shape depth o).events

/-- What is logged when the object type of a name is walked. -/
def roundFrom (c : Converter) (depth : Nat) (root : ObjectType) (n : String) : List Event :=
  ((c.types.objectFrom root n).map (c.round depth)).getD []

theorem roundFrom_eq {root o : ObjectType} {n : String} (h : c.types.objectFrom root n = some o) :
    c.roundFrom depth root n = c.round depth o := by
  rw [roundFrom, h]
  rfl

/-- With room for all references, the rounds end when nothing is left or a walk stops. -/
theorem discover_rounds (hl : c.types.Lawful) {root : ObjectType} {n : Nat} {p : Progress}
    (hp : c.Found depth root p) (hroom : c.types.objects.length + 2 ≤ n + p.definitions.length) :
    ∃ q, Relation.ReflTransGen (c.Advances depth) p q ∧
      ((Finished q ∧ (c.discover depth n p).outcome = .ok q ∧
          (Members.names p.definitions).flatMap (c.roundFrom depth root) ++
              (c.discover depth n p).events =
            (Members.names q.definitions).flatMap (c.roundFrom depth root) ++
              [.converted q.references.length]) ∨
        ∃ r e, q.references[q.definitions.length]? = some r ∧
          (c.shape depth r.2).outcome = .error e ∧ (c.discover depth n p).outcome = .error e ∧
          (Members.names p.definitions).flatMap (c.roundFrom depth root) ++
              (c.discover depth n p).events =
            (Members.names q.definitions).flatMap (c.roundFrom depth root) ++
              c.round depth r.2) := by
  induction n generalizing p with
  | zero =>
    -- There are no more references than object types and the root, so the rounds are not used up.
    have h₁ := hp.length_le
    have h₂ := hp.length_references_le hl
    omega
  | succ n ih =>
    rw [discover]
    cases hnext : p.references[p.definitions.length]? with
    | none => exact ⟨p, Relation.ReflTransGen.refl, Or.inl ⟨hnext, rfl, rfl⟩⟩
    | some r =>
      obtain ⟨name, o⟩ := r
      cases hwalk : (c.shape depth o).outcome with
      | error e =>
        refine ⟨p, Relation.ReflTransGen.refl, Or.inr ⟨(name, o), e, hnext, hwalk, ?_⟩⟩
        constructor <;> simp only [hwalk, round]
      | ok s =>
        have hstep : c.Advances depth p _ := ⟨name, o, s, hnext, hwalk, rfl⟩
        obtain ⟨hobject, hname⟩ := hp.stored _ (List.mem_of_getElem? hnext)
        simp only at hobject hname
        subst hname
        have hnew := hp.next_not_mem hnext
        have htold : (Members.names (p.definitions.put o.name s)).flatMap (c.roundFrom depth root) =
            (Members.names p.definitions).flatMap (c.roundFrom depth root) ++ c.round depth o := by
          rw [Members.names_put, if_neg hnew, List.flatMap_append, List.flatMap_singleton,
            roundFrom_eq hobject]
        obtain ⟨q, hrun, hends⟩ := ih (hp.advances hl hstep) (by
          rw [Members.put_of_not_mem _ hnew, List.length_append, List.length_singleton]
          omega)
        refine ⟨q, Relation.ReflTransGen.head hstep hrun, ?_⟩
        simp only [htold, List.append_assoc] at hends
        simpa only [hwalk, round, List.cons_append] using hends

theorem discover_ends (hl : c.types.Lawful) {root : ObjectType} {n : Nat} {p : Progress}
    (hp : c.Found depth root p) (hroom : c.types.objects.length + 2 ≤ n + p.definitions.length) :
    ∃ q, Relation.ReflTransGen (c.Advances depth) p q ∧
      ((Finished q ∧ (c.discover depth n p).outcome = .ok q) ∨
        ∃ r e, q.references[q.definitions.length]? = some r ∧
          (c.shape depth r.2).outcome = .error e ∧ (c.discover depth n p).outcome = .error e) := by
  obtain ⟨q, hrun, ⟨hdone, hok, -⟩ | ⟨r, e, hnext, hwalk, herror, -⟩⟩ := discover_rounds hl hp hroom
  · exact ⟨q, hrun, Or.inl ⟨hdone, hok⟩⟩
  · exact ⟨q, hrun, Or.inr ⟨r, e, hnext, hwalk, herror⟩⟩

theorem discover_succeeds (hl : c.types.Lawful) {root : ObjectType}
    (hshape : ∀ o, o = root ∨ o ∈ c.types.objects → ∃ s, (c.shape depth o).outcome = .ok s)
    {n : Nat} {p : Progress} (hp : c.Found depth root p)
    (hroom : c.types.objects.length + 2 ≤ n + p.definitions.length) :
    ∃ q, (c.discover depth n p).outcome = .ok q := by
  obtain ⟨q, hrun, ⟨-, hq⟩ | ⟨r, e, hnext, he, -⟩⟩ := discover_ends hl hp hroom
  · exact ⟨q, hq⟩
  · obtain ⟨hobject, -⟩ := (hp.run hl hrun).stored r (List.mem_of_getElem? hnext)
    obtain ⟨s, hs⟩ := hshape r.2 (TypeMap.mem_objects_of_objectFrom hl hobject)
    rw [he] at hs
    cases hs

theorem convert_succeeds (hl : c.types.Lawful) {root : ObjectType} (hroot : root ∈ c.types.objects)
    (h : ∀ o ∈ c.types.objects, ∃ s, (c.shape (c.depth none) o).outcome = .ok s) :
    ∃ doc, (c.convert root).outcome = .ok doc := by
  rw [convert, depth_root hroot]
  have hshape : ∀ o, o = root ∨ o ∈ c.types.objects →
      ∃ s, (c.shape (c.depth none) o).outcome = .ok s := by
    rintro o (rfl | ho)
    · exact h o hroot
    · exact h o ho
  obtain ⟨q, hq⟩ := discover_succeeds hl hshape (found_seeded c _ root) (Nat.le_refl _)
  rw [hq]
  exact ⟨_, rfl⟩

theorem convertNamed_ok {n : String} {doc : Schema} (h : (c.convertNamed n).outcome = .ok doc) :
    ∃ o, c.types.get? n = some (.object o) ∧ (c.convert o).outcome = .ok doc := by
  rw [convertNamed] at h
  split at h
  · rename_i o ho
    exact ⟨o, ho, h⟩
  · simp at h
  · simp at h

theorem convertNamed_eq {n : String} {o : ObjectType} (h : c.types.get? n = some (.object o)) :
    c.convertNamed n = c.convert o := by
  rw [convertNamed, h]

end Converter

/-! ## The shapes of a document -/

/-- The shape of an object type in a document of a root: the document itself without its
definitions, or one of them. -/
def Schema.shapeIn (doc : Schema) (root name : String) : Option Json :=
  if name = root then some doc.withoutDefinitions.toJson else doc.definitions.get? name

namespace Converter

variable {c : Converter} {depth : Nat}

theorem shapeOf_eq (c : Converter) (o : ObjectType) (fragments : List Schema) :
    ∃ ms : Members Json, c.shapeOf o fragments = .keywords ms ∧
      (Members.names ms = ["type", "properties", "required"] ∨
        Members.names ms = ["type", "properties", "required", "description"]) := by
  unfold shapeOf describe
  split
  · exact ⟨_, rfl, Or.inr rfl⟩
  · exact ⟨_, rfl, Or.inl rfl⟩

theorem shape_withoutDefinitions {o : ObjectType} {s : Schema} (h : (c.shape depth o).outcome = .ok s)
    (v : Json) : (s.put definitionsKey v).withoutDefinitions = s := by
  obtain ⟨fragments, -, rfl⟩ := shape_ok h
  obtain ⟨ms, hms, hnames⟩ := c.shapeOf_eq o fragments
  rw [hms]
  apply Schema.withoutDefinitions_put
  rcases hnames with hnames | hnames <;> rw [hnames] <;> decide

theorem shapeIn_eq (hl : c.types.Lawful) {root : ObjectType} {doc : Schema}
    (hroot : c.types.get? root.name = some (.object root)) (h : (c.convert root).outcome = .ok doc)
    {n : String} {j : Json} (hj : doc.shapeIn root.name n = some j) :
    ∃ o s, c.types.get? n = some (.object o) ∧ (c.shape (c.depth none) o).outcome = .ok s ∧
      j = s.toJson := by
  obtain ⟨s, rest, hfound, rfl⟩ := convert_ok hl h
  have hdepth := depth_root (hl.mem_objects_of_get? hroot)
  have hshape := hfound.root_shape
  rw [Schema.shapeIn] at hj
  split at hj
  · rename_i hn
    rw [shape_withoutDefinitions hshape, Option.some.injEq] at hj
    exact ⟨root, s, hn ▸ hroot, hdepth ▸ hshape, hj.symm⟩
  · rw [Schema.definitions_put] at hj
    obtain ⟨s, hd, rfl⟩ := Schema.mem_of_get?_definitions hj
    obtain ⟨o, ho, hs⟩ := hfound.shapes _ hd
    exact ⟨o, s, ho, hdepth ▸ hs, rfl⟩

theorem names_shaped {os : List ObjectType} {ds : Members Schema} (h : c.Shaped depth os ds) :
    Members.names ds = os.map ObjectType.name := by
  induction h with
  | nil => rfl
  | cons hod _ ih => exact congrArg₂ _ hod.1 ih

theorem names_definitions (hl : c.types.Lawful) {all : Schema} (h : c.definitions.outcome = .ok all) :
    Members.names all.definitions = c.types.objects.map ObjectType.name := by
  obtain ⟨ds, rfl, hshaped⟩ := definitions_ok hl h
  rw [Schema.names_definitions_put, names_shaped hshaped]

theorem definitions_get? (hl : c.types.Lawful) {all : Schema} (h : c.definitions.outcome = .ok all)
    {n : String} {o : ObjectType} {s : Schema} (ho : c.types.get? n = some (.object o))
    (hs : (c.shape (c.depth none) o).outcome = .ok s) :
    all.definitions.get? n = some s.toJson := by
  have hnodup : (Members.names all.definitions).Nodup := by
    rw [names_definitions hl h]
    exact TypeMap.nodup_objects hl
  obtain ⟨ds, rfl, hshaped⟩ := definitions_ok hl h
  have hname : o.name = n := hl.object_name ho
  have hmem := hl.mem_objects_of_get? ho
  obtain ⟨d, hd, hdname, hds⟩ := forall₂_mem_left hshaped hmem
  rw [hs, Except.ok.injEq] at hds
  apply Members.get?_of_mem hnodup
  rw [Schema.definitions_put, List.mem_map]
  exact ⟨d, hd, by rw [hdname, hname, hds]⟩

theorem roots_succeed_iff (hl : c.types.Lawful) :
    (∀ n o, c.types.get? n = some (.object o) → ∃ doc, (c.convertNamed n).outcome = .ok doc) ↔
      ∀ o ∈ c.types.objects, ∃ s, (c.shape (c.depth none) o).outcome = .ok s := by
  constructor
  · intro h o ho
    have hget := (TypeMap.mem_objects hl o).mp ho
    obtain ⟨doc, hdoc⟩ := h o.name o hget
    rw [convertNamed_eq hget] at hdoc
    obtain ⟨s, rest, hfound, -⟩ := convert_ok hl hdoc
    exact ⟨s, depth_root ho ▸ hfound.root_shape⟩
  · intro h n o ho
    rw [convertNamed_eq ho]
    exact convert_succeeds hl (hl.mem_objects_of_get? ho) h

theorem convertNamed_shapeIn (hl : c.types.Lawful) {n m : String} {doc : Schema} {j : Json}
    (h : (c.convertNamed n).outcome = .ok doc) (hj : doc.shapeIn n m = some j) :
    ∃ o s, c.types.get? m = some (.object o) ∧ (c.shape (c.depth none) o).outcome = .ok s ∧
      j = s.toJson := by
  obtain ⟨root, hroot, hdoc⟩ := convertNamed_ok h
  obtain rfl : root.name = n := hl.object_name hroot
  exact shapeIn_eq hl hroot hdoc hj

theorem shapeIn_of_mem (hl : c.types.Lawful) {n : String} {doc : Schema}
    (h : (c.convertNamed n).outcome = .ok doc) {m : String × Json} (hm : m ∈ doc.definitions) :
    doc.shapeIn n m.1 = some m.2 := by
  obtain ⟨root, hroot, hdoc⟩ := convertNamed_ok h
  obtain rfl : root.name = n := hl.object_name hroot
  obtain ⟨s, rest, hfound, rfl⟩ := convert_ok hl hdoc
  have hnodup := hfound.nodup
  rw [← Schema.names_definitions_put s, List.nodup_cons] at hnodup
  rw [Schema.shapeIn, if_neg]
  · exact Members.get?_of_mem hnodup.2 hm
  · rintro heq
    exact hnodup.1 (heq ▸ Members.mem_names_of_mem hm)

/-- **Agreement.** The whole map is defined just when every object type converts as a root. -/
theorem entry_points_agree {c : Converter} (hl : c.types.Lawful) :
    ((∃ all, c.definitions.outcome = .ok all) ↔
      ∀ n o, c.types.get? n = some (.object o) → ∃ doc, (c.convertNamed n).outcome = .ok doc) ∧
    (∀ all, c.definitions.outcome = .ok all →
      all.get? definitionsKey = some (.object all.definitions) ∧
      Members.names all.definitions = c.types.objects.map ObjectType.name ∧
      (Members.names all.definitions).Nodup ∧
      ∀ n doc, (c.convertNamed n).outcome = .ok doc →
        all.definitions.get? n = some doc.withoutDefinitions.toJson ∧
        ∀ m ∈ doc.definitions, all.definitions.get? m.1 = some m.2) ∧
    ∀ n₁ n₂ doc₁ doc₂, (c.convertNamed n₁).outcome = .ok doc₁ →
      (c.convertNamed n₂).outcome = .ok doc₂ → ∀ m j₁ j₂, doc₁.shapeIn n₁ m = some j₁ →
      doc₂.shapeIn n₂ m = some j₂ → j₁ = j₂ := by
  refine ⟨?_, ?_, ?_⟩
  · rw [definitions_succeeds_iff hl, roots_succeed_iff hl]
  · intro all hall
    have hshape : ∀ {n doc m j}, (c.convertNamed n).outcome = .ok doc → doc.shapeIn n m = some j →
        all.definitions.get? m = some j := by
      intro n doc m j hdoc hj
      obtain ⟨o, s, ho, hs, rfl⟩ := convertNamed_shapeIn hl hdoc hj
      exact definitions_get? hl hall ho hs
    refine ⟨?_, names_definitions hl hall, ?_, ?_⟩
    · obtain ⟨ds, rfl, -⟩ := definitions_ok hl hall
      rw [Schema.get?_put_definitions, Schema.definitions_put]
    · rw [names_definitions hl hall]
      exact TypeMap.nodup_objects hl
    · intro n doc hdoc
      refine ⟨hshape hdoc (if_pos rfl), ?_⟩
      intro m hm
      exact hshape hdoc (shapeIn_of_mem hl hdoc hm)
  · intro n₁ n₂ doc₁ doc₂ h₁ h₂ m j₁ j₂ hj₁ hj₂
    obtain ⟨o₁, s₁, ho₁, hs₁, rfl⟩ := convertNamed_shapeIn hl h₁ hj₁
    obtain ⟨o₂, s₂, ho₂, hs₂, rfl⟩ := convertNamed_shapeIn hl h₂ hj₂
    obtain rfl := TypeMap.object_inj ho₁ ho₂
    rw [hs₁, Except.ok.injEq] at hs₂
    rw [hs₂]

theorem entry_points_agree_books : bookTypes.Lawful ∧
    (∃ all, bookConverter.definitions.outcome = .ok all ∧
      Members.names all.definitions = ["Book", "Page", "Cover", "Stray"]) ∧
    ∃ doc, (bookConverter.convertNamed "Stray").outcome = .ok doc := by
  have hl : bookTypes.Lawful := TypeMap.ofDefs_lawful _
  obtain ⟨hsuccess, hwhole, -⟩ := entry_points_agree (c := bookConverter) hl
  obtain ⟨all, hall⟩ := exists_ok (x := bookConverter.definitions.outcome) (by decide)
  obtain ⟨-, hnames, -⟩ := hwhole all hall
  exact ⟨hl, ⟨all, hall, hnames⟩, hsuccess.mp ⟨all, hall⟩ "Stray" _ rfl⟩

end Converter

end GraphShape
