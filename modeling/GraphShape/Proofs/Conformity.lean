import GraphShape.Proofs.Linking
import GraphShape.Proofs.Validity

/-!
# Values of GraphQL types

What it takes for a value to conform to an object type, and that a definition accepts just these
values. The key fact is that whatever an object type asks about its fields concerns smaller values,
so both sides agree by induction on the value.
-/

namespace GraphShape

namespace Converter

mutual

/-- A value conforms to an object type: an object with all fields that exclude null, with the type's
own name if any, and with values that conform in its other fields. -/
def ConformsTo (c : Converter) (means : Schema → Json → Prop) (o : ObjectType) (v : Json) : Prop :=
  (∃ ws, v = .object ws ∧ ∀ f ∈ o.fields, f.type.nonNull = true → f.name ∈ Members.names ws) ∧
  (∀ w, v.get? typenameProperty = some w → w = .string o.name) ∧
  ∀ f ∈ o.fields, f.name ≠ typenameProperty → ∀ w, (_ : v.get? f.name = some w) →
    Conforms c means f.type w
termination_by (sizeOf v, 0)
decreasing_by
  rename_i hw
  exact Prod.Lex.left _ _ (Json.sizeOf_get?_lt hw)

/-- A value conforms to a mention of an object type: a text for a collection model. -/
def ConformsToMention (c : Converter) (means : Schema → Json → Prop) (o : ObjectType) (v : Json) :
    Prop :=
  if c.policy o then ∃ text, v = .string text else ConformsTo c means o v
termination_by (sizeOf v, 1)

/-- A value conforms to a type reference. What the schemas of scalars mean is given, and a scalar
without one has any value. -/
def Conforms (c : Converter) (means : Schema → Json → Prop) (t : TypeRef) (v : Json) : Prop :=
  match t with
  | .list item _ =>
    ∃ ws, ∃ _ : v = .array ws, ∀ w, (_ : w ∈ ws) →
      if item.nonNull then Conforms c means item w
      else (w = .null ∧ ¬ Conforms c means item w) ∨ (w ≠ .null ∧ Conforms c means item w)
  | .named n _ =>
    match c.types.get? n with
    | some (.object o) => ConformsToMention c means o v
    | some (.union _ members) =>
      ∃! i : Nat, ∃ m o, members[i]? = some m ∧ c.types.get? m = some (.object o) ∧
        ConformsToMention c means o v
    | some (.scalar _) =>
      match primitiveTypes.get? n with
      | some type => v.typeName = type
      | none => ∀ s, (c.scalars.bind fun m => m.get? n) = some s → means s v
    | some (.enum _ values) => ∃ text ∈ values, v = .string text
    | _ => False
termination_by (sizeOf v, 2)

end

variable {c : Converter} {means : Schema → Json → Prop} {n : String} {b : Bool} {v : Json}

theorem conforms_object {o : ObjectType} (h : c.types.get? n = some (.object o)) :
    Conforms c means (.named n b) v ↔ ConformsToMention c means o v := by
  rw [Conforms]
  simp only [h]

theorem conforms_union {u : String} {members : List String}
    (h : c.types.get? n = some (.union u members)) :
    Conforms c means (.named n b) v ↔ ∃! i : Nat, ∃ m o, members[i]? = some m ∧
      c.types.get? m = some (.object o) ∧ ConformsToMention c means o v := by
  rw [Conforms]
  simp only [h]

theorem conforms_enum {e : String} {values : List String} (h : c.types.get? n = some (.enum e values)) :
    Conforms c means (.named n b) v ↔ ∃ text ∈ values, v = .string text := by
  rw [Conforms]
  simp only [h]

/-! ## Schemas of type references -/

/-- All types that unions name are object types. -/
def UnionsOfObjects (types : TypeMap) : Prop :=
  ∀ n u members, types.get? n = some (.union u members) → ∀ m ∈ members,
    ∃ o, types.get? m = some (.object o)

theorem unionsOfObjects_of_all {types : TypeMap}
    (h : ∀ d ∈ types, ∀ m ∈ d.2.memberNames, types.hasObject m = true) : UnionsOfObjects types := by
  intro n u members hn m hm
  have hobject := h _ (Members.mem_of_get? hn) m hm
  rw [TypeMap.hasObject, Option.isSome_iff_exists] at hobject
  obtain ⟨o, ho⟩ := hobject
  obtain ⟨d, hd, ho⟩ := Option.bind_eq_some_iff.mp ho
  exact ⟨o, TypeMap.eq_object_of_object? ho ▸ hd⟩

theorem UnionsOfObjects.acyclic {types : TypeMap} (h : UnionsOfObjects types) : types.Acyclic := by
  have hleaf : ∀ {n m k}, types.HasMember n m → ¬ types.HasMember m k := by
    rintro n m k ⟨u, members, hn, hm⟩ ⟨u', members', hunion, -⟩
    obtain ⟨o, ho⟩ := h n u members hn m hm
    rw [ho] at hunion
    cases hunion
  intro n hcycle
  obtain ⟨m, hm, hmn⟩ := Relation.TransGen.head'_iff.mp hcycle
  rcases Relation.ReflTransGen.cases_head hmn with rfl | ⟨k, hk, -⟩
  · exact hleaf hm hm
  · exact hleaf hm hk

/-- The definitions of a document accept the values that conform, as far as one value goes. -/
def Faithful (c : Converter) (doc : Json) (other : Json → Json → Prop) (v : Json) : Prop :=
  ∀ n o, c.types.get? n = some (.object o) → ∃ x, doc.at? (definitionPointer n) = some x ∧
    x.isDirect = true ∧ (Json.Accepts doc other x v ↔
      ConformsTo c (fun s w => Json.Accepts doc other s.toJson w) o v)

variable {doc : Json} {other : Json → Json → Prop}

theorem accepts_mentioned (hl : c.types.Lawful) {o : ObjectType}
    (ho : c.types.get? n = some (.object o)) (hv : Faithful c doc other v) :
    Json.Accepts doc other (c.mentioned o).toJson v ↔
      ConformsToMention c (fun s w => Json.Accepts doc other s.toJson w) o v := by
  rw [mentioned, ConformsToMention]
  split
  · exact Schema.accepts_identifier o.name
  · obtain ⟨x, hx, hdirect, hiff⟩ := hv n o ho
    rw [hl.object_name ho, Schema.accepts_reference hx hdirect, hiff]

theorem typeName_of_primitive {type : String} (h : primitiveTypes.get? n = some type) :
    type ∈ Json.typeNames ∧ type ≠ "null" := by
  have hall : ∀ m ∈ primitiveTypes, m.2 ∈ Json.typeNames ∧ m.2 ≠ "null" := by decide
  exact hall (n, type) (Members.mem_of_get? h)

theorem accepts_scalarSchema {u : String} (hn : c.types.get? n = some (.scalar u)) :
    Json.Accepts doc other (c.scalarSchema n).toJson v ↔
      Conforms c (fun s w => Json.Accepts doc other s.toJson w) (.named n b) v := by
  rw [Conforms]
  simp only [hn, scalarSchema]
  cases hprimitive : primitiveTypes.get? n with
  | some type =>
    exact Schema.accepts_primitive (typeName_of_primitive hprimitive).1
  | none =>
    rw [customSchema]
    cases c.scalars.bind (fun m => m.get? n) with
    | some s => simp
    | none =>
      have hany : Json.Accepts doc other Schema.empty.toJson v := Json.accepts_nil
      simpa using hany

theorem existsUnique_pair {P : Nat → Prop} (h : ∀ i, ¬ P (i + 2)) :
    (∃! i, P i) ↔ (P 0 ∧ ¬ P 1) ∨ (¬ P 0 ∧ P 1) := by
  constructor
  · rintro ⟨i, hi, honly⟩
    match i with
    | 0 => exact Or.inl ⟨hi, fun h₁ => absurd (honly 1 h₁) (by decide)⟩
    | 1 => exact Or.inr ⟨fun h₀ => absurd (honly 0 h₀) (by decide), hi⟩
    | i + 2 => exact absurd hi (h i)
  · rintro (⟨h₀, h₁⟩ | ⟨h₀, h₁⟩)
    · refine ⟨0, h₀, ?_⟩
      rintro (_ | _ | j) hj
      · rfl
      · exact absurd hj h₁
      · exact absurd hj (h j)
    · refine ⟨1, h₁, ?_⟩
      rintro (_ | _ | j) hj
      · exact absurd hj h₀
      · rfl
      · exact absurd hj (h j)

theorem accepts_nullable (s : Schema) :
    Json.Accepts doc other (Schema.oneOf [Schema.null, s]).toJson v ↔
      (v = .null ∧ ¬ Json.Accepts doc other s.toJson v) ∨
        (v ≠ .null ∧ Json.Accepts doc other s.toJson v) := by
  rw [Schema.accepts_oneOf, existsUnique_pair (by simp)]
  simp [Schema.accepts_null]

theorem fragment_faithful (hl : c.types.Lawful) (hunions : UnionsOfObjects c.types) {depth : Nat}
    {t : TypeRef} {s : Schema} (h : (c.fragment depth t).outcome = .ok s) (v : Json)
    (hv : ∀ w, sizeOf w ≤ sizeOf v → Faithful c doc other w) :
    Json.Accepts doc other s.toJson v ↔
      Conforms c (fun s w => Json.Accepts doc other s.toJson w) t v := by
  revert v
  apply schema_induct c (P := fun t s => ∀ v, (∀ w, sizeOf w ≤ sizeOf v → Faithful c doc other w) →
    (Json.Accepts doc other s.toJson v ↔
      Conforms c (fun s w => Json.Accepts doc other s.toJson w) t v))
    ?list ?object ?union ?scalar ?enum h
  case list =>
    intro t b s hitem v hv
    rw [Schema.accepts_array, Conforms]
    simp only [exists_prop]
    refine exists_congr (fun ws => and_congr_right ?_)
    rintro rfl
    refine forall₂_congr (fun w hw => ?_)
    have hsize := Json.sizeOf_item_lt hw
    have hiff := hitem w (fun w' hw' => hv w' (by omega))
    rw [Schema.item]
    split
    · exact hiff
    · rw [accepts_nullable, hiff]
  case object =>
    intro n b o hn v hv
    rw [conforms_object hn]
    exact accepts_mentioned hl hn (hv v (Nat.le_refl _))
  case union =>
    intro n b u members choices hn hall v hv
    rw [Schema.accepts_oneOf, conforms_union hn]
    refine existsUnique_congr (fun i => ?_)
    constructor
    · rintro ⟨s, hs, haccepts⟩
      obtain ⟨m, hm, hiff⟩ := forall₂_getElem?_right hall hs
      obtain ⟨o, ho⟩ := hunions n u members hn m (List.mem_of_getElem? hm)
      exact ⟨m, o, hm, ho, (conforms_object ho).mp ((hiff v hv).mp haccepts)⟩
    · rintro ⟨m, o, hm, ho, hconforms⟩
      obtain ⟨s, hs, hiff⟩ := forall₂_getElem?_left hall hm
      exact ⟨s, hs, (hiff v hv).mpr ((conforms_object ho).mpr hconforms)⟩
  case scalar =>
    intro n b u hn v _
    exact accepts_scalarSchema hn
  case enum =>
    intro n b e values hn v _
    rw [Schema.accepts_enumeration, conforms_enum hn]

/-! ## Definitions -/

theorem accepts_describe (description : Option String) (s : Schema)
    (h : Json.isPlain doc (.object s.members) = true ∨ Json.IgnoresAnnotations other) :
    Json.Accepts doc other (c.describe description s).toJson v ↔
      Json.Accepts doc other s.toJson v := by
  unfold describe
  split
  · exact Schema.accepts_putNew s _ (Or.inr rfl) h
  · rfl

theorem accepts_propertyOf (hother : Json.IgnoresAnnotations other) (f : Field) (s : Schema) :
    Json.Accepts doc other (c.propertyOf f s).toJson v ↔ Json.Accepts doc other s.toJson v := by
  rw [propertyOf, accepts_describe _ _ (Or.inr hother),
    Schema.accepts_put s _ (Or.inl rfl) (Or.inr hother)]

theorem accepts_shapeOf (o : ObjectType) (fragments : List Schema) :
    Json.Accepts doc other (c.shapeOf o fragments).toJson v ↔
      ∃ ws, v = .object ws ∧ (∀ k ∈ requiredNames o.fields, k ∈ Members.names ws) ∧
        ∀ k x w, (c.propertiesOf o fragments).get? k = some x → Members.get? ws k = some w →
          Json.Accepts doc other x w := by
  rw [shapeOf, accepts_describe _ _ (Or.inl (Schema.isPlain_shape doc _ _)), Schema.accepts_shape]
  rfl

theorem shape_faithful (hl : c.types.Lawful) (hunions : UnionsOfObjects c.types)
    (hother : Json.IgnoresAnnotations other) {depth : Nat} {o : ObjectType} (ho : o.Lawful)
    {s : Schema} (h : (c.shape depth o).outcome = .ok s) (v : Json)
    (hv : ∀ w, sizeOf w < sizeOf v → Faithful c doc other w) :
    Json.Accepts doc other s.toJson v ↔
      ConformsTo c (fun s w => Json.Accepts doc other s.toJson w) o v := by
  obtain ⟨fragments, hfragments, rfl⟩ := shape_ok h
  have hfield : ∀ {f s w}, (f, s) ∈ o.fields.zip fragments → v.get? f.name = some w →
      (Json.Accepts doc other (c.propertyOf f s).toJson w ↔
        Conforms c (fun s w => Json.Accepts doc other s.toJson w) f.type w) := by
    intro f s w hf hw
    have hsize := Json.sizeOf_get?_lt hw
    have hok := (List.forall₂_iff_zip.mp hfragments).2 hf
    rw [accepts_propertyOf hother]
    exact fragment_faithful hl hunions hok w (fun w' hw' => hv w' (by omega))
  rw [accepts_shapeOf, ConformsTo]
  constructor
  · rintro ⟨ws, rfl, hrequired, hproperties⟩
    refine ⟨⟨ws, rfl, ?_⟩, ?_, ?_⟩
    · intro f hf hnonNull
      exact hrequired f.name (mem_requiredNames.mpr ⟨f, hf, hnonNull, rfl⟩)
    · intro w hw
      have htypename : (c.propertiesOf o fragments).get? typenameProperty =
          some (Schema.typename o.name).toJson := (propertiesOf_get?_iff ho).mpr (Or.inl ⟨rfl, rfl⟩)
      exact (Schema.accepts_typename o.name).mp (hproperties _ _ w htypename hw)
    · intro f hf hname w hw
      obtain ⟨s, hs, -⟩ := exists_mem_zip hfragments hf
      have hproperty : (c.propertiesOf o fragments).get? f.name = some (c.propertyOf f s).toJson :=
        (propertiesOf_get?_iff ho).mpr (Or.inr ⟨hname, f, s, hs, rfl, rfl⟩)
      exact (hfield hs hw).mp (hproperties _ _ w hproperty hw)
  · rintro ⟨⟨ws, rfl, hrequired⟩, htypename, hfields⟩
    refine ⟨ws, rfl, ?_, ?_⟩
    · intro k hk
      obtain ⟨f, hf, hnonNull, rfl⟩ := mem_requiredNames.mp hk
      exact hrequired f hf hnonNull
    · intro k x w hx hw
      rcases (propertiesOf_get?_iff ho).mp hx with ⟨rfl, rfl⟩ | ⟨hname, f, s, hs, rfl, rfl⟩
      · exact (Schema.accepts_typename o.name).mpr (htypename w hw)
      · exact (hfield hs hw).mpr (hfields f (List.of_mem_zip hs).1 hname w hw)

theorem shape_isDirect {depth : Nat} {o : ObjectType} {s : Schema}
    (h : (c.shape depth o).outcome = .ok s) : s.toJson.isDirect = true := by
  obtain ⟨fragments, -, rfl⟩ := shape_ok h
  rw [shapeOf_toJson, Json.isDirect]
  simp only [Members.has, shapeOf_get? o fragments (by decide : "$ref" ≠ "description"),
    shapeOf_get? o fragments (by decide : "oneOf" ≠ "description"),
    shapeOf_get? o fragments (by decide : "not" ≠ "description")]
  rfl

theorem definitions_at? (hl : c.types.Lawful) {doc : Schema} (h : c.definitions.outcome = .ok doc)
    {o : ObjectType} (ho : c.types.get? n = some (.object o)) (hname : isGraphQLName n = true) :
    ∃ s, (c.shape (c.depth none) o).outcome = .ok s ∧ doc.definitions.get? n = some s.toJson ∧
      doc.toJson.at? (definitionPointer n) = some s.toJson := by
  obtain ⟨s, hs⟩ := (definitions_succeeds_iff hl).mp ⟨doc, h⟩ o (hl.mem_objects_of_get? ho)
  have hget := definitions_get? hl h ho hs
  refine ⟨s, hs, hget, ?_⟩
  obtain ⟨base, ds, hlay⟩ := whole_layout hl h
  rwa [hlay.at?_eq hname]

theorem definitions_faithful (hl : c.types.Lawful)
    (hnames : ∀ n ∈ Members.names c.types, isGraphQLName n = true)
    (hfields : ∀ o ∈ c.types.objects, o.Lawful) (hunions : UnionsOfObjects c.types)
    (hother : Json.IgnoresAnnotations other) {doc : Schema} (h : c.definitions.outcome = .ok doc)
    (v : Json) : Faithful c doc.toJson other v := by
  -- Induction on the value: whatever a shape asks concerns smaller values.
  suffices hall : ∀ size v, sizeOf v < size → Faithful c doc.toJson other v from
    hall _ v (Nat.lt_succ_self _)
  intro size
  induction size with
  | zero => intro v hv; omega
  | succ size ih =>
    intro v hv n o ho
    obtain ⟨s, hs, -, hat⟩ := definitions_at? hl h ho (hnames n (Members.mem_names_of_get? ho))
    have hlawful := hfields o (hl.mem_objects_of_get? ho)
    exact ⟨_, hat, shape_isDirect hs,
      shape_faithful hl hunions hother hlawful hs v (fun w hw => ih w (by omega))⟩

/-- **Meaning.** The definition of an object type accepts just the values that conform to it. -/
theorem definition_accepts_iff_conforms {c : Converter} (hl : c.types.Lawful)
    (hnames : ∀ n ∈ Members.names c.types, isGraphQLName n = true)
    (hfields : ∀ o ∈ c.types.objects, o.Lawful) (hunions : UnionsOfObjects c.types)
    {other : Json → Json → Prop} (hother : Json.IgnoresAnnotations other) {doc : Schema}
    (h : c.definitions.outcome = .ok doc) {n : String} {o : ObjectType}
    (ho : c.types.get? n = some (.object o)) :
    ∃ x, doc.definitions.get? n = some x ∧ ∀ v, Json.Accepts doc.toJson other x v ↔
      ConformsTo c (fun s w => Json.Accepts doc.toJson other s.toJson w) o v := by
  obtain ⟨s, hs, hget, hat⟩ := definitions_at? hl h ho (hnames n (Members.mem_names_of_get? ho))
  refine ⟨s.toJson, hget, ?_⟩
  intro v
  obtain ⟨x, hx, -, hiff⟩ := definitions_faithful hl hnames hfields hunions hother h v n o ho
  rw [hat, Option.some.injEq] at hx
  exact hx ▸ hiff

def coverType : ObjectType := ⟨"Cover", none, [⟨"title", .named "String" true, none⟩]⟩

theorem definition_accepts_iff_conforms_covers : ∃ doc x, bookTypes.Lawful ∧
    (∀ n ∈ Members.names bookTypes, isGraphQLName n = true) ∧
    (∀ o ∈ bookTypes.objects, o.Lawful) ∧ UnionsOfObjects bookTypes ∧
    Json.IgnoresAnnotations (fun _ _ => True) ∧ bookConverter.definitions.outcome = .ok doc ∧
    bookTypes.get? "Cover" = some (.object coverType) ∧ doc.definitions.get? "Cover" = some x ∧
    Json.Accepts doc.toJson (fun _ _ => True) x (.object [("title", .string "Emma")]) ∧
    ¬ Json.Accepts doc.toJson (fun _ _ => True) x (.object []) := by
  have hl : bookTypes.Lawful := TypeMap.ofDefs_lawful _
  have hnames : ∀ n ∈ Members.names bookTypes, isGraphQLName n = true := by decide
  have hfields : ∀ o ∈ bookTypes.objects, o.Lawful := by
    have hall : ∀ o ∈ bookTypes.objects, (o.fields.map Field.name).Nodup := by decide
    exact hall
  have hunions : UnionsOfObjects bookTypes := by
    intro n u members h m hm
    have hmem := Members.mem_of_get? h
    simp [bookTypes, TypeMap.ofDefs, TypeMap.add, Members.put, TypeDef.name] at hmem
    obtain ⟨-, -, rfl⟩ := hmem
    simp only [List.mem_cons, List.not_mem_nil, or_false] at hm
    rcases hm with rfl | rfl
    · exact ⟨_, rfl⟩
    · exact ⟨_, rfl⟩
  have hother : Json.IgnoresAnnotations (fun _ _ => True) := fun _ _ _ _ _ => Iff.rfl
  obtain ⟨doc, hdoc⟩ := exists_ok (x := bookConverter.definitions.outcome) (by decide)
  have hcover : bookTypes.get? "Cover" = some (.object coverType) := rfl
  obtain ⟨x, hx, hiff⟩ := definition_accepts_iff_conforms (c := bookConverter) hl hnames hfields
    hunions hother hdoc hcover
  refine ⟨doc, x, hl, hnames, hfields, hunions, hother, hdoc, hcover, hx, ?_, ?_⟩
  · rw [hiff, ConformsTo]
    refine ⟨⟨_, rfl, ?_⟩, ?_, ?_⟩
    · simp [coverType]
    · simp [Members.get?, typenameProperty]
    · intro f hf _ w hw
      rw [List.mem_singleton.mp hf] at hw ⊢
      cases hw
      rw [Conforms]
      exact (rfl : Json.typeName (.string "Emma") = "string")
  · rw [hiff, ConformsTo]
    rintro ⟨⟨ws, hws, hrequired⟩, -⟩
    cases hws
    exact absurd (hrequired _ List.mem_cons_self rfl) (by simp)

end Converter

end GraphShape
