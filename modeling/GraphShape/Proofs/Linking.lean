import GraphShape.Proofs.Agreement
import GraphShape.Proofs.Places
import GraphShape.Proofs.Pointers

/-!
# What references lead to

References stand where components are mentioned. The key fact is that every object type that a
shape of a document mentions is defined in the document, unless it has the name of the root, so
only references back to the root lead nowhere.
-/

namespace GraphShape

namespace Converter

/-! ## Documents -/

/-- A document of the whole map, or of a root. -/
inductive Converted (c : Converter) : Option ObjectType → Schema → Prop where
  | whole {doc : Schema} (h : c.definitions.outcome = .ok doc) : Converted c none doc
  | rooted {root : ObjectType} {doc : Schema} (h : (c.convert root).outcome = .ok doc) :
    Converted c (some root) doc

/-- A document has the shape of an object type at a place: the root's is the document, and the
others are its definitions. -/
inductive Host (c : Converter) (root : Option ObjectType) (doc : Schema) : Route → ObjectType → Prop
    where
  | root {o : ObjectType} (h : root = some o) : Host c root doc [] o
  | definition {n : String} {o : ObjectType} (hn : n ∈ Members.names doc.definitions)
    (ho : c.types.get? n = some (.object o)) :
    Host c root doc [.member definitionsKey, .member n] o

/-- The place of a named type in a document. -/
def Site (c : Converter) (root : Option ObjectType) (doc : Schema) (p : Route) (n : String) : Prop :=
  ∃ q o p', Host c root doc q o ∧ FieldSite c.types o p' n ∧ p = q ++ p'

/-- A place inside the schema of a scalar that is not built in. -/
def Copied (c : Converter) (root : Option ObjectType) (doc : Schema) (p : Route) : Prop :=
  ∃ q q' n, Site c root doc q n ∧ c.IsCustom n ∧ p = q ++ q'

/-- A reference that does not come from the schema of a scalar. -/
def Generated (c : Converter) (root : Option ObjectType) (doc : Schema) (p : Route) (r : String) :
    Prop :=
  doc.toJson.RefAt p r ∧ ¬ Copied c root doc p

/-- What a document is assembled from: the root's shape, if there is a root, and definitions of all
object types that the shapes mention, but for the root's name. -/
structure Layout (c : Converter) (root : Option ObjectType) (doc s : Schema) (ds : Members Schema) :
    Prop where
  doc_eq : doc = s.put definitionsKey (definitionsJson ds)
  base : ∀ o, root = some o → (c.shape (c.depth root) o).outcome = .ok s
  bare : root = none → s = .keywords []
  nodup : (Members.names ds).Nodup
  rootless : ∀ o, root = some o → o.name ∉ Members.names ds
  shapes : ∀ d ∈ ds, ∃ o, c.types.get? d.1 = some (.object o) ∧
    (c.shape (c.depth root) o).outcome = .ok d.2
  closed : ∀ o k, (root = some o ∨ ∃ n ∈ Members.names ds, c.types.get? n = some (.object o)) →
    c.types.Mentions o k → k ∈ Members.names ds ∨ ∃ o, root = some o ∧ o.name = k

variable {c : Converter} {root : Option ObjectType} {doc base s : Schema} {ds : Members Schema}
  {o : ObjectType} {p q : Route} {n r : String}

theorem whole_layout (hl : c.types.Lawful) (h : c.definitions.outcome = .ok doc) :
    ∃ base ds, Layout c none doc base ds := by
  obtain ⟨ds, hdoc, hshaped⟩ := definitions_ok hl h
  have hnames := names_shaped hshaped
  refine ⟨.keywords [], ds, hdoc, by simp, fun _ => rfl, ?_, by simp, ?_, ?_⟩
  · rw [hnames]
    exact TypeMap.nodup_objects hl
  · intro d hd
    obtain ⟨o, ho, hname, hs⟩ := forall₂_mem_right hshaped hd
    exact ⟨o, hname ▸ (TypeMap.mem_objects hl o).mp ho, hs⟩
  · rintro o k - ⟨f, -, hk⟩
    obtain ⟨o', ho'⟩ := hk.get?
    left
    rw [hnames, ← hl.object_name ho']
    exact List.mem_map_of_mem (hl.mem_objects_of_get? ho')

theorem rooted_layout (hl : c.types.Lawful) {root : ObjectType}
    (h : (c.convert root).outcome = .ok doc) :
    ∃ base ds, Layout c (some root) doc base ds := by
  obtain ⟨base, rest, hfound, hdoc⟩ := convert_ok hl h
  obtain ⟨hroot, hnodup⟩ := List.nodup_cons.mp hfound.nodup
  refine ⟨base, rest, hdoc, ?_, by simp, hnodup, ?_, hfound.shapes, ?_⟩
  · rintro o ⟨⟩
    exact hfound.root_shape
  · rintro o ⟨⟩
    exact hroot
  · intro o k ho hk
    -- What is mentioned is reached, and all that is reached is found.
    have hobject : ∃ n ∈ root.name :: Members.names rest, c.types.objectFrom root n = some o := by
      rcases ho with ho | ⟨n, hn, ho⟩
      · cases ho
        exact ⟨_, List.mem_cons_self, c.types.objectFrom_root _⟩
      · refine ⟨n, List.mem_cons_of_mem _ hn, TypeMap.objectFrom_of_ne ?_ ho⟩
        rintro rfl
        exact hroot hn
    obtain ⟨n, hn, ho⟩ := hobject
    have hreached := (hfound.mem_iff_reaches hl n).mp hn
    have hk' := (hfound.mem_iff_reaches hl k).mpr (hreached.tail ⟨o, ho, hk⟩)
    rcases List.mem_cons.mp hk' with rfl | hk'
    · exact Or.inr ⟨root, rfl, rfl⟩
    · exact Or.inl hk'

theorem Converted.layout (hl : c.types.Lawful) (h : Converted c root doc) :
    ∃ base ds, Layout c root doc base ds := by
  cases h with
  | whole h => exact whole_layout hl h
  | rooted h => exact rooted_layout hl h

/-! ## Into a document -/

theorem put_toJson (s : Schema) (k : String) (x : Json) :
    (s.put k x).toJson = .object (Members.put s.members k x) := rfl

theorem get?_definitionsJson (hnodup : (Members.names ds).Nodup) (hd : (n, s) ∈ ds) :
    Members.get? (ds.map (fun m => (m.1, m.2.toJson))) n = some s.toJson := by
  apply Members.get?_of_mem
  · rwa [Members.names, List.map_map]
  · exact List.mem_map_of_mem (f := fun m : String × Schema => (m.1, m.2.toJson)) hd

theorem Layout.names_eq (hlay : Layout c root doc base ds) :
    Members.names doc.definitions = Members.names ds := by
  rw [hlay.doc_eq, Schema.names_definitions_put]

theorem Layout.follow_definition (hlay : Layout c root doc base ds) (hd : (n, s) ∈ ds) (p : Route) :
    doc.toJson.follow (.member definitionsKey :: .member n :: p) = s.toJson.follow p := by
  rw [hlay.doc_eq, put_toJson, Json.follow_member (Members.get?_put_self _ _ _)]
  exact Json.follow_member (get?_definitionsJson hlay.nodup hd) p

theorem Layout.follow_base (hlay : Layout c root doc base ds) {k : String} (hk : k ≠ definitionsKey)
    (p : Route) :
    doc.toJson.follow (.member k :: p) = (Json.object base.members).follow (.member k :: p) := by
  rw [hlay.doc_eq, put_toJson, Json.follow, Json.follow]
  simp only [Json.part?, Members.get?_put_of_ne _ _ hk]

theorem toJson_ne_string (s : Schema) (text : String) : s.toJson ≠ .string text := by
  cases s <;> simp [Schema.toJson]

theorem Converted.root_shape (hl : c.types.Lawful) (h : Converted c (some o) doc) :
    ∃ s x, (c.shape (c.depth (some o)) o).outcome = .ok s ∧ doc = s.put definitionsKey x := by
  obtain ⟨base, ds, hlay⟩ := h.layout hl
  exact ⟨base, _, hlay.base o rfl, hlay.doc_eq⟩

theorem Converted.definition_shape (hl : c.types.Lawful) (h : Converted c root doc) {j : Json}
    (hj : doc.definitions.get? n = some j) :
    ∃ o s, c.types.get? n = some (.object o) ∧ (c.shape (c.depth root) o).outcome = .ok s ∧
      j = s.toJson := by
  obtain ⟨base, ds, hlay⟩ := h.layout hl
  rw [hlay.doc_eq, Schema.definitions_put] at hj
  obtain ⟨s, hd, rfl⟩ := Schema.mem_of_get?_definitions hj
  obtain ⟨o, ho, hs⟩ := hlay.shapes _ hd
  exact ⟨o, s, ho, hs, rfl⟩

theorem Layout.refAt (hlay : Layout c root doc base ds) (h : doc.toJson.RefAt p r) :
    base.toJson.RefAt p r ∨ ∃ d ∈ ds, ∃ q,
      p = .member definitionsKey :: .member d.1 :: q ∧ d.2.toJson.RefAt q r := by
  rw [hlay.doc_eq, put_toJson] at h
  rcases Json.refAt_object h with ⟨rfl, hself⟩ | ⟨k, q, x, rfl, hx, hq⟩
  · rw [Members.get?_put_of_ne _ _ (by decide)] at hself
    exact Or.inl (refAt_members (Json.refAt_nil.mpr hself))
  · by_cases hk : k = definitionsKey
    · subst hk
      rw [Members.get?_put_self, Option.some.injEq] at hx
      subst hx
      right
      rcases Json.refAt_object hq with ⟨-, hself⟩ | ⟨k, q, x, rfl, hx, hq⟩
      · obtain ⟨s, -, hs⟩ := Schema.mem_of_get?_definitions hself
        exact absurd hs.symm (toJson_ne_string s r)
      · obtain ⟨s, hd, rfl⟩ := Schema.mem_of_get?_definitions hx
        exact ⟨_, hd, q, rfl, hq⟩
    · rw [Members.get?_put_of_ne _ _ hk] at hx
      exact Or.inl (refAt_members (Json.refAt_cons.mpr ⟨x, hx, hq⟩))

theorem Layout.at?_eq (hlay : Layout c root doc base ds) (hn : isGraphQLName n = true) :
    doc.toJson.at? (definitionPointer n) = doc.definitions.get? n := by
  rw [at?_definitionPointer _ hn, hlay.doc_eq, Schema.definitions_put, put_toJson, Json.resolve,
    Members.get?_put_self, Option.bind_some, definitionsJson, Json.resolve]
  cases Members.get? (ds.map (fun m => (m.1, m.2.toJson))) n <;> rfl

/-! ## Sites -/

theorem Host.follow (hlay : Layout c root doc base ds) (h : Host c root doc q o) :
    ∃ s, (c.shape (c.depth root) o).outcome = .ok s ∧ ∀ p,
      doc.toJson.follow (q ++ .member "properties" :: p) =
        s.toJson.follow (.member "properties" :: p) := by
  cases h with
  | root ho =>
    refine ⟨base, hlay.base o ho, ?_⟩
    intro p
    obtain ⟨fragments, -, rfl⟩ := shape_ok (hlay.base o ho)
    rw [List.nil_append, hlay.follow_base (by decide), shapeOf_toJson]
  | definition hn ho =>
    rw [hlay.names_eq] at hn
    obtain ⟨d, hd, rfl⟩ := List.mem_map.mp hn
    obtain ⟨o', ho', hs⟩ := hlay.shapes d hd
    obtain rfl := TypeMap.object_inj ho ho'
    exact ⟨d.2, hs, fun p => hlay.follow_definition hd _⟩

theorem Host.unique {q q' p p' : Route} {o o' : ObjectType} (h : Host c root doc q o)
    (h' : Host c root doc q' o')
    (heq : q ++ .member "properties" :: p = q' ++ .member "properties" :: p') :
    o = o' ∧ q = q' ∧ p = p' := by
  cases h with
  | root ho =>
    cases h' with
    | root ho' =>
      rw [ho, Option.some.injEq] at ho'
      exact ⟨ho', rfl, (List.cons.inj heq).2⟩
    | definition => simp [definitionsKey] at heq
  | definition _ ho =>
    cases h' with
    | root => simp [definitionsKey] at heq
    | definition _ ho' =>
      simp only [List.cons_append, List.nil_append, List.cons.injEq, Step.member.injEq,
        true_and] at heq
      obtain ⟨rfl, rfl⟩ := heq
      exact ⟨TypeMap.object_inj ho ho', rfl, rfl⟩

theorem Site.defined_iff (hlay : Layout c root doc base ds) (h : Site c root doc p n)
    (hn : c.IsComponent n) :
    n ∈ Members.names doc.definitions ↔ ∀ o, root = some o → o.name ≠ n := by
  rw [hlay.names_eq]
  constructor
  · rintro hmem o ho rfl
    exact hlay.rootless o ho hmem
  · intro hroot
    obtain ⟨q, o, p, hhost, ⟨f, hf, -, t, rfl, ht⟩, rfl⟩ := h
    obtain ⟨o', ho', -⟩ := hn
    have hhosted : root = some o ∨ ∃ n ∈ Members.names ds, c.types.get? n = some (.object o) := by
      cases hhost with
      | root ho => exact Or.inl ho
      | definition hmem ho => exact Or.inr ⟨_, hlay.names_eq ▸ hmem, ho⟩
    rcases hlay.closed o n hhosted ⟨f, hf, ht.leads ho'⟩ with hmem | ⟨o, ho, hname⟩
    · exact hmem
    · exact absurd hname (hroot o ho)

theorem toJson_of_get? {s : Schema} {k : String} {x : Json} (hk : k ≠ "not")
    (h : Members.get? s.members k = some x) : s.toJson = .object s.members := by
  cases s with
  | keywords ms => rfl
  | always b => cases b <;> simp [Schema.members, Members.get?, Ne.symm hk] at h

theorem not_custom_of_object (ho : c.types.get? n = some (.object o)) : ¬ c.IsCustom n := by
  rintro ⟨⟨u, hu⟩, -⟩
  rw [ho] at hu
  cases hu

/-! ## What stands at sites -/

section Fields

variable (hl : c.types.Lawful) (hfields : ∀ o, root = some o ∨ o ∈ c.types.objects → o.Lawful)
include hl hfields

theorem Host.lawful (h : Host c root doc q o) : o.Lawful := by
  cases h with
  | root ho => exact hfields o (Or.inl ho)
  | definition _ ho => exact hfields o (Or.inr (hl.mem_objects_of_get? ho))

theorem Site.follow (hlay : Layout c root doc base ds) (h : Site c root doc p n) :
    ∃ s' : Schema, doc.toJson.follow p = some s'.toJson ∧
      (∀ k, k ≠ "title" → k ≠ "description" →
        Members.get? s'.members k = Members.get? (c.leaf n).members k) ∧
      ∀ q r, s'.toJson.RefAt q r → (c.leaf n).toJson.RefAt q r := by
  obtain ⟨q, o, p, hhost, hp, rfl⟩ := h
  obtain ⟨s, hs, hfollow⟩ := hhost.follow hlay
  obtain ⟨s', hs', hkeywords, hrefs⟩ := shape_follow (hhost.lawful hl hfields) hs hp
  obtain ⟨f, -, -, p, rfl, -⟩ := hp
  exact ⟨s', (hfollow _).trans hs', hkeywords, hrefs⟩

/-- No site is inside another. -/
theorem Site.unique {p q p' q' : Route} {n n' : String} (h : Site c root doc p n)
    (h' : Site c root doc p' n') (heq : p ++ q = p' ++ q') : n = n' := by
  obtain ⟨host, o, p, hhost, hp, rfl⟩ := h
  obtain ⟨host', o', p', hhost', hp', rfl⟩ := h'
  have hp₀ := hp
  have hp₀' := hp'
  obtain ⟨f, -, -, t, rfl, -⟩ := hp₀
  obtain ⟨f', -, -, t', rfl, -⟩ := hp₀'
  simp only [List.append_assoc, List.cons_append] at heq
  obtain ⟨rfl, -, heq⟩ := hhost.unique hhost' heq
  exact (hp.unique (hhost.lawful hl hfields) hp'
    (congrArg (List.cons (Step.member "properties")) heq)).2

theorem refAt_site (hlay : Layout c root doc base ds) (h : doc.toJson.RefAt p r) :
    ∃ q q' n, Site c root doc q n ∧ p = q ++ q' ∧ (c.leaf n).toJson.RefAt q' r := by
  have hinside : ∀ {host : Route} {o : ObjectType} {s : Schema} {p : Route},
      Host c root doc host o → (c.shape (c.depth root) o).outcome = .ok s → s.toJson.RefAt p r →
      ∃ q q' n, Site c root doc q n ∧ host ++ p = q ++ q' ∧ (c.leaf n).toJson.RefAt q' r := by
    intro host o s p hhost hs hr
    obtain ⟨q, q', n, hq, rfl, hn⟩ := shape_refAt (hhost.lawful hl hfields) hs hr
    exact ⟨host ++ q, q', n, ⟨host, o, q, hhost, hq, rfl⟩, (List.append_assoc _ _ _).symm, hn⟩
  rcases hlay.refAt h with hr | ⟨d, hd, q, rfl, hr⟩
  · cases root with
    | none =>
      rw [hlay.bare rfl] at hr
      exact absurd hr not_refAt_empty
    | some o => exact hinside (Host.root rfl) (hlay.base o rfl) hr
  · obtain ⟨o, ho, hs⟩ := hlay.shapes d hd
    exact hinside (Host.definition (hlay.names_eq ▸ Members.mem_names_of_mem hd) ho) hs hr

theorem generated_iff (hlay : Layout c root doc base ds) (p : Route) (r : String) :
    Generated c root doc p r ↔
      ∃ n, Site c root doc p n ∧ c.IsComponent n ∧ r = definitionPointer n := by
  constructor
  · rintro ⟨hr, hcopied⟩
    obtain ⟨q, q', n, hq, rfl, hn⟩ := refAt_site hl hfields hlay hr
    rcases leaf_refAt hl hn with ⟨hcomponent, rfl, rfl⟩ | hcustom
    · rw [List.append_nil]
      exact ⟨n, hq, hcomponent, rfl⟩
    · exact absurd ⟨q, q', n, hq, hcustom, rfl⟩ hcopied
  · rintro ⟨n, hp, hcomponent, rfl⟩
    refine ⟨?_, ?_⟩
    · obtain ⟨s', hfollow, hkeywords, -⟩ := hp.follow hl hfields hlay
      have hself := hkeywords "$ref" (by decide) (by decide)
      rw [leaf_component hl hcomponent] at hself
      rw [toJson_of_get? (by decide) hself] at hfollow
      rw [Json.RefAt, Json.follow_append, hfollow, Option.bind_some]
      exact (Json.follow_member hself []).trans rfl
    · rintro ⟨q, q', n', hq, hcustom, heq⟩
      obtain ⟨o, ho, -⟩ := hcomponent
      rw [hp.unique (q := []) hl hfields hq (by rw [List.append_nil, heq])] at ho
      exact not_custom_of_object ho hcustom

theorem collection_identifier (hlay : Layout c root doc base ds) (hp : Site c root doc p n)
    (hcollection : c.IsCollection n) :
    ∃ ms : Members Json, doc.toJson.follow p = some (.object ms) ∧
      ms.get? "type" = some (.string "string") ∧ ms.get? "$ref" = none := by
  obtain ⟨s', hfollow, hkeywords, -⟩ := hp.follow hl hfields hlay
  rw [leaf_collection hl hcollection] at hkeywords
  have htype := hkeywords "type" (by decide) (by decide)
  rw [toJson_of_get? (by decide) htype] at hfollow
  exact ⟨_, hfollow, htype, hkeywords "$ref" (by decide) (by decide)⟩

theorem copied_refAt (hlay : Layout c root doc base ds) (hp : Site c root doc p n)
    (hcustom : c.IsCustom n) (hr : doc.toJson.RefAt (p ++ q) r) :
    (c.customSchema n).toJson.RefAt q r := by
  obtain ⟨s', hfollow, -, hrefs⟩ := hp.follow hl hfields hlay
  obtain ⟨x, hx, hr⟩ := Json.refAt_append.mp hr
  rw [hfollow, Option.some.injEq] at hx
  rw [← leaf_custom hcustom]
  exact hrefs q r (hx ▸ hr)

end Fields

theorem definitionPointer_inj {n m : String} (h : definitionPointer n = definitionPointer m) :
    n = m := by
  have hlist := congrArg String.toList h
  rw [definitionPointer, definitionPointer, String.toList_append, String.toList_append] at hlist
  exact String.toList_inj.mp (List.append_cancel_left hlist)

/-- A value is the shape of the object type of a name, and holds the name. -/
def IsShapeOf (c : Converter) (root : Option ObjectType) (n : String) (j : Json) : Prop :=
  (∃ o s, c.types.get? n = some (.object o) ∧ (c.shape (c.depth root) o).outcome = .ok s ∧
    j = s.toJson) ∧
  j.follow [.member "properties", .member typenameProperty, .member "const"] = some (.string n)

theorem definition_isShapeOf (hl : c.types.Lawful)
    (hfields : ∀ o, root = some o ∨ o ∈ c.types.objects → o.Lawful)
    (hlay : Layout c root doc base ds) {j : Json} (hj : doc.definitions.get? n = some j) :
    IsShapeOf c root n j := by
  rw [hlay.doc_eq, Schema.definitions_put] at hj
  obtain ⟨s, hd, rfl⟩ := Schema.mem_of_get?_definitions hj
  obtain ⟨o, ho, hs⟩ := hlay.shapes _ hd
  refine ⟨⟨o, s, ho, hs, rfl⟩, ?_⟩
  rw [shape_follow_typename (hfields o (Or.inr (hl.mem_objects_of_get? ho))) hs, hl.object_name ho]

/-- How the references of a document are linked. -/
structure Linked (c : Converter) (root : Option ObjectType) (doc : Schema) : Prop where
  /-- The references that are not copied stand just at the mentions of components, and each points
  to the definition of what is mentioned. -/
  generated : ∀ p r, Generated c root doc p r ↔
    ∃ n, Site c root doc p n ∧ c.IsComponent n ∧ r = definitionPointer n
  copied : ∀ p q n r, Site c root doc p n → c.IsCustom n → doc.toJson.RefAt (p ++ q) r →
    (c.customSchema n).toJson.RefAt q r
  identifier : ∀ p n, Site c root doc p n → c.IsCollection n → ∃ ms : Members Json,
    doc.toJson.follow p = some (.object ms) ∧ ms.get? "type" = some (.string "string") ∧
    ms.get? "$ref" = none
  /-- Only references to the name of a root lead nowhere. -/
  resolved : ∀ p n, Generated c root doc p (definitionPointer n) →
    ((∃ j, doc.toJson.at? (definitionPointer n) = some j) ↔ ∀ o, root = some o → o.name ≠ n) ∧
    ∀ j, doc.toJson.at? (definitionPointer n) = some j → IsShapeOf c root n j
  /-- No definition holds the name of another. -/
  named : ∀ n j, doc.definitions.get? n = some j → IsShapeOf c root n j
  always : c.policy = Policy.always → ∀ p r, ¬ Generated c root doc p r
  never : c.policy = Policy.never → ∀ p n o, Site c root doc p n →
    c.types.get? n = some (.object o) → Generated c root doc p (definitionPointer n)

/-- **Linking.** Generated references stand at the mentions of components. -/
theorem converted_linked {c : Converter} (hl : c.types.Lawful)
    (hnames : ∀ n ∈ Members.names c.types, isGraphQLName n = true) {root : Option ObjectType}
    (hfields : ∀ o, root = some o ∨ o ∈ c.types.objects → o.Lawful) {doc : Schema}
    (h : Converted c root doc) : Linked c root doc := by
  obtain ⟨base, ds, hlay⟩ := h.layout hl
  have hgenerated := generated_iff hl hfields hlay
  refine ⟨hgenerated, fun _ _ _ _ => copied_refAt hl hfields hlay,
    fun _ _ => collection_identifier hl hfields hlay, ?_,
    fun _ _ => definition_isShapeOf hl hfields hlay, ?_, ?_⟩
  · intro p n hn
    obtain ⟨n', hp, hcomponent, heq⟩ := (hgenerated p _).mp hn
    obtain rfl := definitionPointer_inj heq
    obtain ⟨o, ho, -⟩ := id hcomponent
    have hat := hlay.at?_eq (hnames n (Members.mem_names_of_get? ho))
    refine ⟨?_, fun j hj => definition_isShapeOf hl hfields hlay (hat ▸ hj)⟩
    rw [hat, ← hp.defined_iff hlay hcomponent, ← Option.isSome_iff_exists, ← Members.has_iff]
    rfl
  · intro hpolicy p r hr
    obtain ⟨n, -, ⟨o, -, ho⟩, -⟩ := (hgenerated p r).mp hr
    rw [hpolicy] at ho
    cases ho
  · intro hpolicy p n o hp ho
    refine (hgenerated p _).mpr ⟨n, hp, ⟨o, ho, ?_⟩, rfl⟩
    rw [hpolicy]
    rfl

def pageType : ObjectType :=
  ⟨"Page", none, [⟨"next", .named "Page" false, none⟩, ⟨"book", .named "Book" true, none⟩]⟩

theorem converted_linked_pages : ∃ doc, bookTypes.Lawful ∧
    (∀ n ∈ Members.names bookTypes, isGraphQLName n = true) ∧
    (∀ o, some pageType = some o ∨ o ∈ bookTypes.objects → o.Lawful) ∧
    (bookConverter.convert pageType).outcome = .ok doc ∧
    (∃ j, doc.toJson.at? "#/$defs/Book" = some j) ∧
    ¬ ∃ j, doc.toJson.at? "#/$defs/Page" = some j := by
  have hl : bookTypes.Lawful := TypeMap.ofDefs_lawful _
  have hnames : ∀ n ∈ Members.names bookTypes, isGraphQLName n = true := by decide
  have hfields : ∀ o, some pageType = some o ∨ o ∈ bookTypes.objects → o.Lawful := by
    have hall : ∀ o ∈ pageType :: bookTypes.objects, (o.fields.map Field.name).Nodup := by decide
    rintro o (ho | ho)
    · exact hall o (by rw [Option.some.inj ho]; exact List.mem_cons_self)
    · exact hall o (List.mem_cons_of_mem _ ho)
  obtain ⟨doc, hdoc⟩ := exists_ok (by decide : (bookConverter.convert pageType).outcome.isOk = true)
  have hlinked := converted_linked (c := bookConverter) hl hnames hfields (Converted.rooted hdoc)
  -- The fields stand in the root's own shape, each with the object type that it names.
  have hpointer : ∀ f ∈ pageType.fields, f.name ≠ typenameProperty → ∀ n b, f.type = .named n b →
      ∀ o, bookTypes.get? n = some (.object o) →
      ((∃ j, doc.toJson.at? (definitionPointer n) = some j) ↔ pageType.name ≠ n) := by
    intro f hf hname n b ht o ho
    have hstands : bookTypes.Stands f.type [] n := ht ▸ TypeMap.Stands.here (by simp [ho])
    have hsite : Site bookConverter (some pageType) doc _ n :=
      ⟨[], pageType, _, Host.root rfl, ⟨f, hf, hname, [], rfl, hstands⟩, rfl⟩
    have hgenerated := hlinked.never rfl _ n o hsite ho
    rw [(hlinked.resolved _ n hgenerated).1]
    simp
  refine ⟨doc, hl, hnames, hfields, hdoc, ?_, ?_⟩
  · exact (hpointer _ (.tail _ (.head _)) (by decide) "Book" true rfl _ rfl).mpr (by decide)
  · intro hresolved
    exact (hpointer _ (.head _) (by decide) "Page" false rfl _ rfl).mp hresolved rfl

end Converter

end GraphShape
