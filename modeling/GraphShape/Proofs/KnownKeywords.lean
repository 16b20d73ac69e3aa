import GraphShape.Proofs.Fragments
import GraphShape.Proofs.Linking
import GraphShape.Proofs.ScalarMaps

/-!
# Documents in the closed vocabulary

A map of scalars that was read from a text has only schemas with known keywords. The key fact is that
lists, unions, titles and descriptions keep to these keywords, but a title on the schema that accepts
nothing spells it out as a negation, which is none of them.
-/

namespace GraphShape

namespace ScalarMap

theorem isForeign_of_parse {text : String} {map : ScalarMap} (h : parse text = .ok map) {n : String}
    {s : Schema} (hs : Members.get? map n = some s) : Schema.isForeign s.toJson = false := by
  rcases parse_cases text with ⟨⟨e, herror⟩, -⟩ | ⟨ms, -, ⟨bad, herror, -⟩ | ⟨map', hmap', hall, hdefines⟩⟩
  · cases h.symm.trans herror
  · cases h.symm.trans herror
  · cases h.symm.trans hmap'
    rw [Schema.isForeign_eq_false_iff]
    apply hall (n, s.toJson)
    rw [← hdefines]
    exact List.mem_map_of_mem (f := fun m : String × Schema => (m.1, m.2.toJson))
      (Members.mem_of_get? hs)

end ScalarMap

namespace Schema

theorem someForeignMember_put {ms : Members Json} {k : String} {x : Json}
    (h : someForeignMember ms = false) (hk : k ∈ knownKeywords)
    (hx : isForeignUnder k x = false) : someForeignMember (Members.put ms k x) = false := by
  rw [someForeignMember_eq_false_iff] at h ⊢
  intro m hm
  rcases Members.mem_put hm with rfl | hm
  · exact ⟨hk, hx⟩
  · exact h m hm

theorem someForeignMember_putNew {ms : Members Json} {k : String} {x : Json}
    (h : someForeignMember ms = false) (hk : k ∈ knownKeywords)
    (hx : isForeignUnder k x = false) : someForeignMember (Members.putNew ms k x) = false := by
  rw [Members.putNew]
  split
  · exact h
  · exact someForeignMember_put h hk hx

theorem isForeignUnder_items (j : Json) : isForeignUnder "items" j = isForeign j := by
  cases j <;> simp [isForeignUnder, isForeign, holdsSchema, holdsList, holdsNamed]

theorem known_array {items : Schema} (h : isForeign items.toJson = false) :
    isForeign (array items).toJson = false := by
  show (false || (isForeignUnder "items" items.toJson || false)) = false
  rw [isForeignUnder_items, h]
  rfl

theorem known_oneOf {choices : List Schema} (h : ∀ s ∈ choices, isForeign s.toJson = false) :
    isForeign (oneOf choices).toJson = false := by
  have hitems : someForeignItem (choices.map toJson) = false := by
    rw [someForeignItem_eq_false_iff]
    intro x hx
    obtain ⟨s, hs, rfl⟩ := List.mem_map.mp hx
    exact h s hs
  show (someForeignItem (choices.map toJson) || false) = false
  rw [hitems]
  rfl

theorem known_item {s : Schema} (h : isForeign s.toJson = false) (nonNull : Bool) :
    isForeign (item nonNull s).toJson = false := by
  unfold item
  split
  · exact h
  · exact known_oneOf (List.forall_mem_cons.mpr ⟨rfl, List.forall_mem_singleton.mpr h⟩)

end Schema

namespace Converter

open Schema

variable {c : Converter} {depth : Nat} {o : ObjectType} {t : TypeRef} {s : Schema}
  {fragments : List Schema}

/-- What the map has for a scalar that is not built in was checked. -/
def Vetted (c : Converter) : Prop := ∀ n, isForeign (c.customSchema n).toJson = false

/-- A type is that of a scalar which is not built in and for which the map accepts nothing. -/
def Forbids (c : Converter) (t : TypeRef) : Prop :=
  ∃ n b, t = .named n b ∧ c.IsCustom n ∧ c.scalars.bind (fun map => map.get? n) = some (.always false)

theorem vetted_of_parse (h : ∀ map, c.scalars = some map →
    map = [] ∨ ∃ text, ScalarMap.parse text = .ok map) : c.Vetted := by
  intro n
  unfold customSchema
  cases hs : c.scalars.bind (fun map => map.get? n) with
  | none => rfl
  | some s =>
    obtain ⟨map, hmap, hs⟩ := Option.bind_eq_some_iff.mp hs
    rcases h map hmap with rfl | ⟨text, htext⟩
    · cases hs
    · exact ScalarMap.isForeign_of_parse htext hs

theorem someForeignMember_describe (description : Option String)
    (h : someForeignMember s.members = false) :
    someForeignMember (c.describe description s).members = false := by
  unfold describe
  split
  · exact someForeignMember_putNew h (by decide) rfl
  · exact h

/-! ## Type references -/

theorem Generates.known (hv : c.Vetted) (h : c.Generates t s) : isForeign s.toJson = false := by
  obtain ⟨depth, h⟩ := h
  apply schema_induct c (P := fun _ s => isForeign s.toJson = false)
    ?list ?object ?union ?scalar ?enum h
  case list =>
    intro t b s hs
    exact known_array (known_item hs t.nonNull)
  case object =>
    intro n b o _
    unfold mentioned
    split <;> rfl
  case union =>
    intro n b u members choices _ hall
    apply known_oneOf
    intro s hs
    obtain ⟨m, -, hm⟩ := forall₂_mem_right hall hs
    exact hm
  case scalar =>
    intro n b u _
    unfold scalarSchema
    split
    · rfl
    · exact hv n
  case enum =>
    intro n b e values _
    rfl

theorem Generates.accepts_nothing_iff (h : c.Generates t s) : s = .always false ↔ c.Forbids t := by
  constructor
  · rintro rfl
    rcases h.custom_or_built with ⟨n, b, rfl, hn⟩ | ⟨ms, hms, -⟩
    · have hs := h.custom hn
      unfold customSchema at hs
      cases hget : c.scalars.bind (fun map => map.get? n) with
      | none =>
        rw [hget] at hs
        cases hs
      | some s =>
        rw [hget] at hs
        exact ⟨n, b, rfl, hn, by rw [hget, hs]; rfl⟩
    · cases hms
  · rintro ⟨n, b, rfl, hn, hs⟩
    rw [h.custom hn, customSchema, hs]
    rfl

/-! ## Properties -/

theorem propertyOf_known_iff (f : Field) (hs : isForeign s.toJson = false) :
    isForeign (c.propertyOf f s).toJson = false ↔ s ≠ .always false := by
  rw [propertyOf_toJson, isForeign]
  constructor
  · rintro h rfl
    have hnot : Members.get? (c.propertyOf f (.always false)).members "not" = some (.object []) :=
      get?_propertyOf c f _ (by decide) (by decide)
    rw [someForeignMember_eq_false_iff] at h
    exact absurd (h _ (Members.mem_of_get? hnot)).1 (by decide)
  · intro hne
    have hmembers : someForeignMember s.members = false := by
      cases s with
      | keywords ms => exact hs
      | always b =>
        cases b with
        | true => rfl
        | false => exact absurd rfl hne
    have htitle : someForeignMember (s.put "title" (.string f.name)).members = false :=
      someForeignMember_put hmembers (by decide) rfl
    exact someForeignMember_describe f.description htitle

/-! ## Shapes -/

theorem shapeOf_known_iff (o : ObjectType) (fragments : List Schema) :
    isForeign (c.shapeOf o fragments).toJson = false ↔
      someForeignValue (c.propertiesOf o fragments) = false := by
  rw [shapeOf_toJson, isForeign]
  constructor
  · intro h
    rw [someForeignMember_eq_false_iff] at h
    exact (h _ (Members.mem_of_get? (c.shapeOf_properties o fragments))).2
  · intro h
    apply someForeignMember_describe
    show (false || (someForeignValue (c.propertiesOf o fragments) || false)) = false
    rw [h]
    rfl

theorem shape_known_iff (hv : c.Vetted) (ho : o.Lawful) (h : (c.shape depth o).outcome = .ok s) :
    isForeign s.toJson = false ↔
      ∀ f ∈ o.fields, f.name ≠ typenameProperty → ¬ c.Forbids f.type := by
  obtain ⟨fragments, hfragments, rfl⟩ := shape_ok h
  have hnodup := nodup_propertiesOf (c := c) ho fragments
  rw [shapeOf_known_iff, someForeignValue_eq_false_iff]
  constructor
  · intro hknown f hf hname hforbids
    obtain ⟨s, hs, hok⟩ := exists_mem_zip hfragments hf
    have hgenerates : c.Generates f.type s := ⟨depth, hok⟩
    have hget : (c.propertiesOf o fragments).get? f.name = some (c.propertyOf f s).toJson :=
      (propertiesOf_get?_iff ho).mpr (Or.inr ⟨hname, f, s, hs, rfl, rfl⟩)
    have hproperty := hknown _ (Members.mem_of_get? hget)
    rw [propertyOf_known_iff f (hgenerates.known hv)] at hproperty
    exact hproperty (hgenerates.accepts_nothing_iff.mpr hforbids)
  · rintro hnone ⟨k, x⟩ hm
    have hget := (Members.get?_eq_some_iff hnodup).mpr hm
    rcases (propertiesOf_get?_iff ho).mp hget with ⟨-, rfl⟩ | ⟨hk, f, s, hs, rfl, rfl⟩
    · rfl
    · obtain ⟨-, hok⟩ := List.forall₂_iff_zip.mp hfragments
      have hgenerates : c.Generates f.type s := ⟨depth, hok hs⟩
      rw [propertyOf_known_iff f (hgenerates.known hv), ne_eq, hgenerates.accepts_nothing_iff]
      exact hnone f (List.of_mem_zip hs).1 hk

/-- **Vocabulary.** Definitions have known keywords, but for fields whose own type is forbidden. -/
theorem documents_keep_vocabulary {c : Converter} (hl : c.types.Lawful)
    (hscalars : ∀ map, c.scalars = some map → map = [] ∨ ∃ text, ScalarMap.parse text = .ok map)
    {root : Option ObjectType} (hfields : ∀ o, root = some o ∨ o ∈ c.types.objects → o.Lawful)
    {doc : Schema} (h : Converted c root doc) :
    (∀ o, root = some o → (isForeign doc.withoutDefinitions.toJson = false ↔
      ∀ f ∈ o.fields, f.name ≠ typenameProperty → ¬ c.Forbids f.type)) ∧
    ∀ n j, doc.definitions.get? n = some j → ∃ o, c.types.get? n = some (.object o) ∧
      (isForeign j = false ↔
        ∀ f ∈ o.fields, f.name ≠ typenameProperty → ¬ c.Forbids f.type) := by
  have hv := vetted_of_parse hscalars
  constructor
  · rintro o rfl
    obtain ⟨s, x, hs, rfl⟩ := h.root_shape hl
    rw [shape_withoutDefinitions hs]
    exact shape_known_iff hv (hfields o (Or.inl rfl)) hs
  · intro n j hj
    obtain ⟨o, s, ho, hs, rfl⟩ := h.definition_shape hl hj
    exact ⟨o, ho, shape_known_iff hv (hfields o (Or.inr (hl.mem_objects_of_get? ho))) hs⟩

/-- Nothing is accepted as a value of this scalar. -/
def houseScalars : String := "\x7b\"Day\":\x7b\"type\":\"string\"\x7d,\"Never\":false\x7d"

/-- What accepts nothing stands in a list and behind the type's own name, and nowhere else. -/
def houseType : ObjectType :=
  ⟨"House", none, [⟨"since", .named "Day" true, none⟩,
    ⟨"gaps", .list (.named "Never" true) false, none⟩, ⟨"__typename", .named "Never" true, none⟩,
    ⟨"ghost", .named "Ghost" false, none⟩]⟩

def houseConverter : Converter where
  types := TypeMap.ofDefs [.object houseType,
    .object ⟨"Ghost", some "Not there", [⟨"seen", .named "Never" false, none⟩]⟩,
    .scalar "Day", .scalar "Never"]
  policy := Policy.never
  scalars := some [("Day", Schema.primitive "string"), ("Never", .always false)]
  descriptions := true

theorem documents_keep_vocabulary_houses : ∃ doc, houseConverter.types.Lawful ∧
    (∀ map, houseConverter.scalars = some map →
      map = [] ∨ ∃ text, ScalarMap.parse text = .ok map) ∧
    (∀ o, some houseType = some o ∨ o ∈ houseConverter.types.objects → o.Lawful) ∧
    (houseConverter.convert houseType).outcome = .ok doc ∧
    isForeign doc.withoutDefinitions.toJson = false ∧
    ∃ j, doc.definitions.get? "Ghost" = some j ∧ isForeign j = true := by
  have hl : houseConverter.types.Lawful := TypeMap.ofDefs_lawful _
  have hscalars : ∀ map, houseConverter.scalars = some map →
      map = [] ∨ ∃ text, ScalarMap.parse text = .ok map := by
    have hread : Json.parse houseScalars =
        .ok (.object [("Day", .object [("type", .string "string")]), ("Never", .bool false)]) := by rfl
    rintro _ ⟨⟩
    exact Or.inr ⟨houseScalars, (ScalarMap.parse_of_object hread).trans rfl⟩
  have hfields : ∀ o, some houseType = some o ∨ o ∈ houseConverter.types.objects → o.Lawful :=
    ObjectType.lawful_of_all (by decide) (by decide)
  obtain ⟨doc, hdoc⟩ :=
    exists_ok (by decide : (houseConverter.convert houseType).outcome.isOk = true)
  have hghost : (houseConverter.convert houseType).outcome.map
      (fun doc => (doc.definitions.get? "Ghost").isSome) = .ok true := by rfl
  rw [hdoc] at hghost
  obtain ⟨j, hj⟩ := Option.isSome_iff_exists.mp (Except.ok.inj hghost)
  obtain ⟨hroot, hdefinitions⟩ := documents_keep_vocabulary hl hscalars hfields (.rooted hdoc)
  refine ⟨doc, hl, hscalars, hfields, hdoc, (hroot _ rfl).mpr ?_, j, hj, ?_⟩
  · rintro f hf hname ⟨n, b, htype, hcustom, hget⟩
    simp only [houseType, List.mem_cons, List.not_mem_nil, or_false] at hf
    rcases hf with rfl | rfl | rfl | rfl
    · cases htype
      cases hget
    · cases htype
    · exact hname rfl
    · cases htype
      exact not_custom_of_object rfl hcustom
  · obtain ⟨o, ho, hknown⟩ := hdefinitions "Ghost" j hj
    cases ho
    rw [← Bool.not_eq_false, hknown]
    intro hallowed
    exact hallowed _ (.head _) (by decide) ⟨"Never", false, rfl, ⟨⟨_, rfl⟩, rfl⟩, rfl⟩

end Converter

end GraphShape
