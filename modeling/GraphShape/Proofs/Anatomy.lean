import GraphShape.Proofs.Linking

/-!
# The anatomy of a shape

Whatever the options are, a shape has one property a field in the order of the fields, one for the
type's own name, and a list of what is required. The key fact is that the fragment of a field only
ever fills a property: the title is put over it, and the type's own name is put over everything.
-/

namespace GraphShape

/-- The type of a field excludes null at its outermost level. What lists hold does not count. -/
inductive Field.ExcludesNull : Field → Prop where
  | named (name type : String) (description : Option String) :
    ExcludesNull ⟨name, .named type true, description⟩
  | list (name : String) (item : TypeRef) (description : Option String) :
    ExcludesNull ⟨name, .list item true, description⟩

theorem Field.excludesNull_iff (f : Field) : f.ExcludesNull ↔ f.type.nonNull = true := by
  obtain ⟨name, type, description⟩ := f
  constructor
  · intro h
    cases h <;> rfl
  · intro h
    cases type with
    | named n b =>
      obtain rfl : b = true := h
      exact .named name n description
    | list item b =>
      obtain rfl : b = true := h
      exact .list name item description

namespace ObjectType

/-- The properties of a shape. -/
structure HasProperties (o : ObjectType) (properties : Members Json) : Prop where
  /-- The fields in order, and then the type's own name unless a field has taken its place. -/
  names : Members.names properties =
    if typenameProperty ∈ o.fields.map Field.name then o.fields.map Field.name
    else o.fields.map Field.name ++ [typenameProperty]
  titled : ∀ n x, properties.get? n = some x → n ≠ typenameProperty →
    x.get? "title" = some (.string n)
  typename : properties.get? typenameProperty =
    some (.object [("const", .string o.name), ("title", .string typenameProperty)])

/-- The names that a shape requires. -/
structure Requires (o : ObjectType) (required : List String) : Prop where
  inOrder : required.Sublist (o.fields.map Field.name)
  nodup : required.Nodup
  mem_iff : ∀ n, n ∈ required ↔ ∃ f ∈ o.fields, f.name = n ∧ f.ExcludesNull

end ObjectType

/-- The value is a shape of the object type. -/
def Json.Portrays (j : Json) (o : ObjectType) : Prop :=
  j.get? "type" = some (.string "object") ∧
  ∃ properties required, j.get? "properties" = some (.object properties) ∧
    j.get? "required" = some (strings required) ∧ o.HasProperties properties ∧
    o.Requires required ∧ required ⊆ Members.names properties

namespace Converter

variable {c : Converter} {depth : Nat} {o : ObjectType} {fragments : List Schema}

/-! ## Parts -/

theorem names_fields (hlength : o.fields.length = fragments.length) :
    Members.names ((o.fields.zip fragments).map
      (fun m => (m.1.name, (c.propertyOf m.1 m.2).toJson))) = o.fields.map Field.name := by
  have hfst : (o.fields.zip fragments).map Prod.fst = o.fields := List.map_fst_zip (by omega)
  calc Members.names ((o.fields.zip fragments).map
        (fun m => (m.1.name, (c.propertyOf m.1 m.2).toJson)))
      = ((o.fields.zip fragments).map Prod.fst).map Field.name := by
        rw [Members.names, List.map_map, List.map_map]
        rfl
    _ = o.fields.map Field.name := by rw [hfst]

theorem names_propertiesOf (ho : o.Lawful) (hlength : o.fields.length = fragments.length) :
    Members.names (c.propertiesOf o fragments) =
      if typenameProperty ∈ o.fields.map Field.name then o.fields.map Field.name
      else o.fields.map Field.name ++ [typenameProperty] := by
  have hnames := names_fields (c := c) hlength
  rw [propertiesOf, properties, zipWith_property, Members.ofList_of_nodup (by rwa [hnames]),
    Members.names_put, hnames]

theorem propertyOf_title (f : Field) (s : Schema) :
    (c.propertyOf f s).toJson.get? "title" = some (.string f.name) := by
  have htitle : Members.get? (c.propertyOf f s).members "title" = some (.string f.name) := by
    rw [propertyOf, get?_members_describe c _ _ (by decide), Schema.members_put,
      Members.get?_put_self]
  rw [propertyOf_toJson]
  exact htitle

theorem hasProperties_propertiesOf (ho : o.Lawful)
    (hlength : o.fields.length = fragments.length) :
    o.HasProperties (c.propertiesOf o fragments) := by
  refine ⟨names_propertiesOf ho hlength, ?_, ?_⟩
  · intro n x hx hn
    rcases (propertiesOf_get?_iff ho).mp hx with ⟨hself, -⟩ | ⟨-, f, s, -, rfl, rfl⟩
    · exact absurd hself hn
    · exact propertyOf_title f s
  · exact (propertiesOf_get?_iff ho).mpr (Or.inl ⟨rfl, rfl⟩)

theorem requiredNames_sublist (fields : List Field) :
    (requiredNames fields).Sublist (fields.map Field.name) :=
  (List.filter_sublist (l := fields)).map Field.name

theorem requires_requiredNames (ho : o.Lawful) : o.Requires (requiredNames o.fields) := by
  refine ⟨requiredNames_sublist _, (requiredNames_sublist _).nodup ho, ?_⟩
  intro n
  rw [mem_requiredNames]
  refine exists_congr (fun f => and_congr_right (fun _ => ?_))
  rw [f.excludesNull_iff, and_comm]

/-! ## Shapes -/

theorem shapeOf_portrays (ho : o.Lawful) (hlength : o.fields.length = fragments.length) :
    (Json.object (c.shapeOf o fragments).members).Portrays o := by
  have hproperties := hasProperties_propertiesOf (c := c) ho hlength
  refine ⟨shapeOf_get? o fragments (by decide), _, _, shapeOf_properties o fragments,
    shapeOf_get? o fragments (by decide), hproperties, requires_requiredNames ho, ?_⟩
  rw [hproperties.names]
  intro n hn
  have hfield := (requiredNames_sublist _).subset hn
  split
  · exact hfield
  · exact List.mem_append_left _ hfield

theorem shape_portrays (ho : o.Lawful) {s : Schema} (h : (c.shape depth o).outcome = .ok s) :
    s.toJson.Portrays o := by
  obtain ⟨fragments, hfragments, rfl⟩ := shape_ok h
  rw [shapeOf_toJson]
  exact shapeOf_portrays ho hfragments.length_eq

end Converter

theorem Json.Portrays.put {ms : Members Json} {o : ObjectType} (h : (Json.object ms).Portrays o)
    (x : Json) : (Json.object (ms.put definitionsKey x)).Portrays o := by
  obtain ⟨htype, properties, required, hproperties, hrequired, hrest⟩ := h
  refine ⟨?_, properties, required, ?_, ?_, hrest⟩
  · exact (Members.get?_put_of_ne ms x (by decide)).trans htype
  · exact (Members.get?_put_of_ne ms x (by decide)).trans hproperties
  · exact (Members.get?_put_of_ne ms x (by decide)).trans hrequired

namespace Converter

/-- **Shapes.** Every walk that succeeds gives a shape of its object type. -/
theorem shapes_portray_types (c : Converter) :
    (∀ depth o s, o.Lawful → (c.shape depth o).outcome = .ok s → s.toJson.Portrays o) ∧
    (c.types.Lawful → (∀ o ∈ c.types.objects, o.Lawful) → ∀ root doc, Converted c root doc →
      (∀ o, root = some o → o.Lawful → doc.toJson.Portrays o) ∧
      ∀ n j, doc.definitions.get? n = some j →
        ∃ o, c.types.get? n = some (.object o) ∧ j.Portrays o) := by
  refine ⟨fun _ _ _ ho h => shape_portrays ho h, ?_⟩
  intro hl hfields root doc h
  obtain ⟨base, ds, hlay⟩ := h.layout hl
  constructor
  · intro o hroot ho
    obtain ⟨fragments, hfragments, rfl⟩ := shape_ok (hlay.base o hroot)
    rw [hlay.doc_eq, put_toJson]
    exact (shapeOf_portrays ho hfragments.length_eq).put _
  · intro n j hj
    rw [hlay.doc_eq, Schema.definitions_put] at hj
    obtain ⟨s, hd, rfl⟩ := Schema.mem_of_get?_definitions hj
    obtain ⟨o, hget, hs⟩ := hlay.shapes _ hd
    exact ⟨o, hget, shape_portrays (hfields o (hl.mem_objects_of_get? hget)) hs⟩

/-- A field stands in the place of the type's own name, and the schema of a scalar accepts
nothing. -/
def badgeType : ObjectType :=
  ⟨"Badge", some "What is worn", [⟨"code", .named "Code" true, none⟩,
    ⟨"__typename", .named "String" true, none⟩,
    ⟨"ranks", .list (.named "Rank" true) false, some "From the first on"⟩]⟩

def badgeConverter : Converter where
  types := TypeMap.ofDefs
    [.object badgeType, .scalar "Code", .scalar "String", .enum "Rank" ["GOLD", "TIN"],
      .object ⟨"Coat", none, [⟨"badges", .list (.named "Badge" false) true, none⟩]⟩]
  policy := Policy.never
  scalars := some [("Code", .always false)]
  descriptions := true

theorem shapes_portray_types_badges : ∃ doc : Schema, badgeConverter.types.Lawful ∧
    (∀ o ∈ badgeConverter.types.objects, o.Lawful) ∧
    badgeConverter.definitions.outcome = .ok doc ∧
    ∃ j, doc.definitions.get? "Badge" = some j ∧ j.Portrays badgeType ∧
      ∃ required, j.get? "required" = some (Json.strings required) ∧
        "code" ∈ required ∧ "__typename" ∈ required ∧ "ranks" ∉ required := by
  have hl : badgeConverter.types.Lawful := TypeMap.ofDefs_lawful _
  have hfields : ∀ o ∈ badgeConverter.types.objects, o.Lawful := by
    have hall : ∀ o ∈ badgeConverter.types.objects, (o.fields.map Field.name).Nodup := by decide
    exact hall
  obtain ⟨doc, hdoc⟩ := exists_ok (x := badgeConverter.definitions.outcome) (by decide)
  have hbadge : badgeConverter.types.get? "Badge" = some (.object badgeType) := rfl
  obtain ⟨s, hs⟩ := (definitions_succeeds_iff hl).mp ⟨doc, hdoc⟩ _ (hl.mem_objects_of_get? hbadge)
  have hget := definitions_get? hl hdoc hbadge hs
  obtain ⟨-, hdefinitions⟩ :=
    (shapes_portray_types badgeConverter).2 hl hfields none doc (Converted.whole hdoc)
  obtain ⟨o, ho, hportrays⟩ := hdefinitions "Badge" _ hget
  obtain rfl := TypeMap.object_inj hbadge ho
  obtain ⟨-, _, required, -, hrequired, -, hrequires, -⟩ := id hportrays
  refine ⟨doc, hl, hfields, hdoc, _, hget, hportrays, required, hrequired, ?_, ?_, ?_⟩
  · exact (hrequires.mem_iff "code").mpr ⟨_, .head _, rfl, .named _ _ _⟩
  · exact (hrequires.mem_iff "__typename").mpr ⟨_, .tail _ (.head _), rfl, .named _ _ _⟩
  · intro hranks
    obtain ⟨f, hf, hname, hexcludes⟩ := (hrequires.mem_iff "ranks").mp hranks
    rw [f.excludesNull_iff] at hexcludes
    have hall : ∀ f ∈ badgeType.fields, f.name = "ranks" → f.type.nonNull = false := by decide
    rw [hall f hf hname] at hexcludes
    cases hexcludes

end Converter

end GraphShape
