import GraphShape.Proofs.Walking

/-!
# What a shape holds

A shape holds a type, properties and what is required. The key fact is that no two fields have one
name, so under each name stands the property of its own field, unless that is the type's own name.
-/

namespace GraphShape

namespace Members

variable {α : Type}

theorem foldl_put {pairs ms : Members α} (h : (names (ms ++ pairs)).Nodup) :
    pairs.foldl (fun ms (n, a) => put ms n a) ms = ms ++ pairs := by
  induction pairs generalizing ms with
  | nil => rw [List.foldl_nil, List.append_nil]
  | cons m rest ih =>
    obtain ⟨n, a⟩ := m
    have hn : n ∉ names ms := by
      rw [names_append, List.nodup_append] at h
      intro hn
      exact h.2.2 n hn n List.mem_cons_self rfl
    have happend : ms ++ (n, a) :: rest = ms ++ [(n, a)] ++ rest := by
      rw [List.append_assoc, List.singleton_append]
    show rest.foldl (fun ms (n, a) => put ms n a) (ms.put n a) = _
    rw [put_of_not_mem a hn, happend]
    exact ih (happend ▸ h)

theorem ofList_of_nodup {pairs : Members α} (h : (names pairs).Nodup) : ofList pairs = pairs :=
  foldl_put h

end Members

namespace ObjectType

/-- No two fields have one name. -/
def Lawful (o : ObjectType) : Prop := (o.fields.map Field.name).Nodup

theorem ofFields_lawful (name : String) (description : Option String) (fields : List Field) :
    (ofFields name description fields).Lawful := by
  suffices h : ∀ ms : Members Field, (Members.names ms).Nodup → (∀ m ∈ ms, m.2.name = m.1) →
      (((fields.map (fun f => (f.name, f))).foldl (fun ms (n, f) => Members.put ms n f) ms).map
        (fun m => m.2.name)).Nodup by
    rw [Lawful, ofFields, List.map_map]
    exact h [] List.nodup_nil (by simp)
  induction fields with
  | nil =>
    intro ms hnodup hkeyed
    rw [List.map_nil, List.foldl_nil, List.map_congr_left hkeyed]
    exact hnodup
  | cons f rest ih =>
    intro ms hnodup hkeyed
    refine ih _ (Members.nodup_names_put _ _ hnodup) ?_
    intro m hm
    rcases Members.mem_put hm with rfl | hm
    · rfl
    · exact hkeyed m hm

theorem lawful_of_all {root : ObjectType} {objects : List ObjectType}
    (h : ∀ o ∈ objects, (o.fields.map Field.name).Nodup) (hroot : root ∈ objects) :
    ∀ o, some root = some o ∨ o ∈ objects → o.Lawful := by
  rintro o (ho | ho)
  · exact Option.some.inj ho ▸ h root hroot
  · exact h o ho

end ObjectType

namespace Schema

variable {s : Schema} {k other : String} {x : Json}

theorem members_put (s : Schema) (k : String) (x : Json) :
    (s.put k x).members = Members.put s.members k x := rfl

theorem members_putNew (s : Schema) (k : String) (x : Json) :
    (s.putNew k x).members = Members.putNew s.members k x := rfl

theorem get?_members_put (h : other ≠ k) :
    Members.get? (s.put k x).members other = Members.get? s.members other :=
  Members.get?_put_of_ne _ _ h

theorem get?_members_putNew (h : other ≠ k) :
    Members.get? (s.putNew k x).members other = Members.get? s.members other := by
  rw [members_putNew, Members.putNew]
  split
  · rfl
  · exact Members.get?_put_of_ne _ _ h

theorem get?_members_putNew_self :
    Members.get? (s.putNew k x).members k = some x ∨
      Members.get? (s.putNew k x).members k = Members.get? s.members k := by
  rw [members_putNew, Members.putNew]
  split
  · exact Or.inr rfl
  · exact Or.inl (Members.get?_put_self _ _ _)

end Schema

namespace Converter

variable (c : Converter)

theorem get?_members_describe (description : Option String) (s : Schema) {k : String}
    (h : k ≠ "description") :
    Members.get? (c.describe description s).members k = Members.get? s.members k := by
  unfold describe
  split
  · exact Schema.get?_members_putNew h
  · rfl

theorem get?_describe_description (description : Option String) (s : Schema) {x : Json}
    (h : Members.get? (c.describe description s).members "description" = some x) :
    (∃ text, x = .string text) ∨ Members.get? s.members "description" = some x := by
  unfold describe at h
  split at h
  · rename_i text _
    rcases Schema.get?_members_putNew_self (s := s) (k := "description") (x := .string text)
      with hput | hput
    · rw [hput, Option.some.injEq] at h
      exact Or.inl ⟨text, h.symm⟩
    · exact Or.inr (hput ▸ h)
  · exact Or.inr h

theorem get?_propertyOf (f : Field) (s : Schema) {k : String} (htitle : k ≠ "title")
    (hdescription : k ≠ "description") :
    Members.get? (c.propertyOf f s).members k = Members.get? s.members k := by
  rw [propertyOf, get?_members_describe c _ _ hdescription, Schema.get?_members_put htitle]

theorem get?_propertyOf_annotated (f : Field) (s : Schema) {k : String} {x : Json}
    (hk : k = "title" ∨ k = "description")
    (h : Members.get? (c.propertyOf f s).members k = some x) :
    (∃ text, x = .string text) ∨ Members.get? s.members k = some x := by
  rcases hk with rfl | rfl
  · rw [propertyOf, get?_members_describe c _ _ (by decide)] at h
    rw [Schema.members_put, Members.get?_put_self, Option.some.injEq] at h
    exact Or.inl ⟨f.name, h.symm⟩
  · rcases get?_describe_description c _ _ h with htext | h
    · exact Or.inl htext
    · rw [Schema.get?_members_put (by decide)] at h
      exact Or.inr h

theorem describe_toJson (description : Option String) (s : Schema) (h : s.toJson = .object s.members) :
    (c.describe description s).toJson = .object (c.describe description s).members := by
  unfold describe
  split
  · rfl
  · exact h

theorem propertyOf_toJson (f : Field) (s : Schema) :
    (c.propertyOf f s).toJson = .object (c.propertyOf f s).members :=
  describe_toJson c _ _ rfl

theorem shapeOf_toJson (o : ObjectType) (fragments : List Schema) :
    (c.shapeOf o fragments).toJson = .object (c.shapeOf o fragments).members :=
  describe_toJson c _ _ rfl

/-! ## Properties -/

def propertiesOf (o : ObjectType) (fragments : List Schema) : Members Json :=
  properties o (List.zipWith c.propertyOf o.fields fragments)

variable {c} {o : ObjectType} {fragments : List Schema}

theorem zipWith_property (fields : List Field) (fragments : List Schema) :
    List.zipWith (fun (f : Field) s => (f.name, s.toJson)) fields
        (List.zipWith c.propertyOf fields fragments) =
      (fields.zip fragments).map (fun m => (m.1.name, (c.propertyOf m.1 m.2).toJson)) := by
  induction fields generalizing fragments with
  | nil => rfl
  | cons f rest ih =>
    cases fragments with
    | nil => rfl
    | cons s more => exact congrArg _ (ih more)

theorem map_fst_zip_sublist {α β : Type} (xs : List α) (ys : List β) :
    ((xs.zip ys).map Prod.fst).Sublist xs := by
  induction xs generalizing ys with
  | nil => exact List.Sublist.refl _
  | cons x rest ih =>
    cases ys with
    | nil => exact List.nil_sublist _
    | cons y more => exact (ih more).cons_cons x

theorem nodup_zip_names (ho : o.Lawful) (fragments : List Schema) :
    ((o.fields.zip fragments).map (fun m => m.1.name)).Nodup := by
  have h := ((map_fst_zip_sublist o.fields fragments).map Field.name).nodup ho
  rwa [List.map_map] at h

theorem nodup_zip_properties (ho : o.Lawful) (fragments : List Schema) :
    (Members.names ((o.fields.zip fragments).map
      (fun m => (m.1.name, (c.propertyOf m.1 m.2).toJson)))).Nodup := by
  rw [Members.names, List.map_map]
  exact nodup_zip_names ho fragments

theorem nodup_propertiesOf (ho : o.Lawful) (fragments : List Schema) :
    (Members.names (c.propertiesOf o fragments)).Nodup := by
  have hnames := nodup_zip_properties (c := c) ho fragments
  unfold propertiesOf properties
  rw [zipWith_property, Members.ofList_of_nodup hnames]
  exact Members.nodup_names_put _ _ hnames

theorem propertiesOf_get?_iff (ho : o.Lawful) {k : String} {x : Json} :
    (c.propertiesOf o fragments).get? k = some x ↔
      (k = typenameProperty ∧ x = (Schema.typename o.name).toJson) ∨
      (k ≠ typenameProperty ∧ ∃ f s, (f, s) ∈ o.fields.zip fragments ∧ f.name = k ∧
        x = (c.propertyOf f s).toJson) := by
  by_cases hk : k = typenameProperty
  · subst hk
    rw [propertiesOf, properties, Members.get?_put_self, Option.some.injEq]
    simp [eq_comm]
  · have hnames := nodup_zip_properties (c := c) ho fragments
    rw [propertiesOf, properties, Members.get?_put_of_ne _ _ hk, zipWith_property,
      Members.ofList_of_nodup hnames, Members.get?_eq_some_iff hnames, List.mem_map]
    constructor
    · rintro ⟨⟨f, s⟩, hm, heq⟩
      obtain ⟨hname, hx⟩ := Prod.mk.inj heq
      exact Or.inr ⟨hk, f, s, hm, hname, hx.symm⟩
    · rintro (⟨hk', -⟩ | ⟨-, f, s, hm, hname, hx⟩)
      · exact absurd hk' hk
      · exact ⟨(f, s), hm, by rw [hname, hx]⟩

/-! ## What is required -/

theorem mem_requiredNames {fields : List Field} {k : String} :
    k ∈ requiredNames fields ↔ ∃ f ∈ fields, f.type.nonNull = true ∧ f.name = k := by
  simp [requiredNames, and_assoc]

/-! ## Keywords -/

theorem shapeOf_get? (o : ObjectType) (fragments : List Schema) {k : String} (h : k ≠ "description") :
    Members.get? (c.shapeOf o fragments).members k =
      Members.get? [("type", .string "object"), ("properties", .object (c.propertiesOf o fragments)),
        ("required", Json.strings (requiredNames o.fields))] k :=
  get?_members_describe c _ _ h

theorem shapeOf_properties (o : ObjectType) (fragments : List Schema) :
    Members.get? (c.shapeOf o fragments).members "properties" =
      some (.object (c.propertiesOf o fragments)) :=
  shapeOf_get? o fragments (by decide)

end Converter

end GraphShape
