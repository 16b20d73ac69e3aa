import GraphShape.Proofs.Shapes
import Mathlib.Data.List.Nodup

/-!
# Places of references

A route is the way from a value to one of its parts. The key fact is that a type reference fixes
where its schema has the schemas of named types, and that a reference stands only there or inside
the schema of a scalar.
-/

namespace GraphShape

/-- A step into a part of a value. -/
inductive Step where
  | member (key : String)
  | item (index : Nat)
  deriving DecidableEq, Repr

/-- The way to a part of a value. -/
abbrev Route := List Step

namespace Json

/-! ## Parts -/

def part? : Json → Step → Option Json
  | .object ms, .member key => Members.get? ms key
  | .array xs, .item i => xs[i]?
  | _, _ => none

def follow : Json → Route → Option Json
  | j, [] => some j
  | j, step :: route => (j.part? step).bind (fun x => x.follow route)

/-- A reference stands at a place. -/
def RefAt (j : Json) (route : Route) (r : String) : Prop :=
  j.follow (route ++ [.member "$ref"]) = some (.string r)

variable {j x : Json} {p q : Route} {step : Step} {r : String}

theorem follow_append (j : Json) (p q : Route) :
    j.follow (p ++ q) = (j.follow p).bind (fun x => x.follow q) := by
  induction p generalizing j with
  | nil => rfl
  | cons step p ih =>
    rw [List.cons_append, follow, follow]
    cases j.part? step with
    | none => rfl
    | some x => exact ih x

theorem follow_of_part? (h : j.part? step = some x) (p : Route) :
    j.follow (step :: p) = x.follow p := by
  rw [follow, h, Option.bind_some]

theorem follow_member {ms : Members Json} {k : String} (h : ms.get? k = some x) (p : Route) :
    (object ms).follow (.member k :: p) = x.follow p := by
  have hpart : (object ms).part? (.member k) = some x := h
  exact follow_of_part? hpart p

theorem refAt_nil : j.RefAt [] r ↔ j.part? (.member "$ref") = some (.string r) := by
  rw [RefAt, List.nil_append, follow]
  cases j.part? (.member "$ref") <;> simp [follow]

theorem refAt_append : j.RefAt (p ++ q) r ↔ ∃ x, j.follow p = some x ∧ x.RefAt q r := by
  rw [RefAt, List.append_assoc, follow_append, Option.bind_eq_some_iff]
  rfl

theorem refAt_cons : j.RefAt (step :: p) r ↔ ∃ x, j.part? step = some x ∧ x.RefAt p r := by
  rw [RefAt, List.cons_append, follow, Option.bind_eq_some_iff]
  rfl

theorem not_refAt (h : ∀ step, j.part? step = none) : ¬ j.RefAt p r := by
  cases p with
  | nil => rw [refAt_nil, h]; simp
  | cons step p => rw [refAt_cons, h]; simp

theorem not_refAt_string (text : String) : ¬ (string text).RefAt p r := not_refAt (fun _ => rfl)

theorem refAt_object {ms : Members Json} (h : (object ms).RefAt p r) :
    (p = [] ∧ ms.get? "$ref" = some (.string r)) ∨
      ∃ k q x, p = .member k :: q ∧ ms.get? k = some x ∧ x.RefAt q r := by
  cases p with
  | nil => exact Or.inl ⟨rfl, refAt_nil.mp h⟩
  | cons step q =>
    obtain ⟨x, hx, hq⟩ := refAt_cons.mp h
    cases step with
    | member k => exact Or.inr ⟨k, q, x, rfl, hx, hq⟩
    | item i => cases hx

theorem refAt_array {xs : List Json} (h : (array xs).RefAt p r) :
    ∃ i q x, p = .item i :: q ∧ xs[i]? = some x ∧ x.RefAt q r := by
  cases p with
  | nil => cases refAt_nil.mp h
  | cons step q =>
    obtain ⟨x, hx, hq⟩ := refAt_cons.mp h
    cases step with
    | member k => cases hx
    | item i => exact ⟨i, q, x, rfl, hx, hq⟩

theorem not_refAt_strings (texts : List String) : ¬ (strings texts).RefAt p r := by
  intro h
  obtain ⟨i, q, x, -, hx, hq⟩ := refAt_array h
  rw [List.getElem?_map, Option.map_eq_some_iff] at hx
  obtain ⟨text, -, rfl⟩ := hx
  exact not_refAt_string text hq

end Json

/-! ## Where the named types of a type reference stand -/

namespace TypeMap

/-- In the schema of a type reference, a place has the schema of a named type that is no union: at
the type itself, in a choice of a union, or among the items of a list, where null is the first
choice unless it is excluded. -/
inductive Stands (types : TypeMap) : TypeRef → Route → String → Prop where
  | here {n : String} {b : Bool} (h : ∀ u members, types.get? n ≠ some (.union u members)) :
    Stands types (.named n b) [] n
  | choice {n u m k : String} {b : Bool} {members : List String} {i : Nat} {p : Route}
    (h : types.get? n = some (.union u members)) (hm : members[i]? = some m)
    (hp : Stands types (.named m false) p k) :
    Stands types (.named n b) (.member "oneOf" :: .item i :: p) k
  | item {t : TypeRef} {b : Bool} {p : Route} {k : String} (h : t.nonNull = true)
    (hp : Stands types t p k) : Stands types (.list t b) (.member "items" :: p) k
  | nullable {t : TypeRef} {b : Bool} {p : Route} {k : String} (h : t.nonNull = false)
    (hp : Stands types t p k) :
    Stands types (.list t b) (.member "items" :: .member "oneOf" :: .item 1 :: p) k

variable {types : TypeMap} {t : TypeRef} {p : Route} {n : String}

theorem Stands.unique (h : types.Stands t p n) {p' q q' : Route} {n' : String}
    (h' : types.Stands t p' n') (heq : p ++ q = p' ++ q') : p = p' ∧ n = n' := by
  induction h generalizing p' n' with
  | here hn =>
    cases h' with
    | here => exact ⟨rfl, rfl⟩
    | choice hu => exact absurd hu (hn _ _)
  | choice hu hm _ ih =>
    cases h' with
    | here hn => exact absurd hu (hn _ _)
    | choice hu' hm' hp' =>
      rw [hu, Option.some.injEq, TypeDef.union.injEq] at hu'
      obtain ⟨rfl, rfl⟩ := hu'
      simp only [List.cons_append, List.cons.injEq, Step.item.injEq, true_and] at heq
      obtain ⟨rfl, heq⟩ := heq
      rw [hm, Option.some.injEq] at hm'
      subst hm'
      obtain ⟨rfl, hn⟩ := ih hp' heq
      exact ⟨rfl, hn⟩
  | item hb _ ih =>
    cases h' with
    | item _ hp' =>
      obtain ⟨rfl, hn⟩ := ih hp' (List.cons.inj heq).2
      exact ⟨rfl, hn⟩
    | nullable hb' => simp [hb] at hb'
  | nullable hb _ ih =>
    cases h' with
    | item hb' => simp [hb] at hb'
    | nullable _ hp' =>
      simp only [List.cons_append, List.cons.injEq, true_and] at heq
      obtain ⟨rfl, hn⟩ := ih hp' heq
      exact ⟨rfl, hn⟩

theorem Stands.leads (h : types.Stands t p n) {o : ObjectType} (ho : types.get? n = some (.object o)) :
    types.Leads t.innerName n := by
  induction h with
  | here => exact Leads.object ho
  | choice hu hm _ ih => exact Leads.member hu (List.mem_of_getElem? hm) (ih ho)
  | item _ _ ih => exact ih ho
  | nullable _ _ ih => exact ih ho

theorem Stands.head {step : Step} {q : Route} (h : types.Stands t (step :: q) n) :
    ∃ k, step = .member k ∧ k ≠ "title" ∧ k ≠ "description" := by
  cases h <;> exact ⟨_, rfl, by decide, by decide⟩

end TypeMap

namespace Converter

variable (c : Converter)

/-! ## Schemas of named types -/

/-- The schema of a named type that is no union. -/
def leaf (n : String) : Schema :=
  match c.types.get? n with
  | some (.object o) => c.mentioned o
  | some (.scalar _) => c.scalarSchema n
  | some (.enum e values) => Schema.enumeration e values
  | _ => Schema.empty

/-- A name is that of a scalar that is not built in. -/
def IsCustom (n : String) : Prop :=
  (∃ u, c.types.get? n = some (.scalar u)) ∧ primitiveTypes.get? n = none

/-- A name is that of an object type whose mentions refer to its definition. -/
def IsComponent (n : String) : Prop := ∃ o, c.types.get? n = some (.object o) ∧ c.policy o = false

/-- A name is that of an object type whose mentions stand for its identifier. -/
def IsCollection (n : String) : Prop := ∃ o, c.types.get? n = some (.object o) ∧ c.policy o = true

variable {c} {n : String} {p q : Route} {r : String}

theorem leaf_component (hl : c.types.Lawful) (h : c.IsComponent n) :
    c.leaf n = Schema.reference n := by
  obtain ⟨o, ho, hpolicy⟩ := h
  have hname : o.name = n := hl.object_name ho
  rw [leaf, ho]
  show c.mentioned o = _
  rw [mentioned, hpolicy, hname]
  rfl

theorem leaf_collection (hl : c.types.Lawful) (h : c.IsCollection n) :
    c.leaf n = Schema.identifier n := by
  obtain ⟨o, ho, hpolicy⟩ := h
  have hname : o.name = n := hl.object_name ho
  rw [leaf, ho]
  show c.mentioned o = _
  rw [mentioned, hpolicy, hname]
  rfl

theorem leaf_custom (h : c.IsCustom n) : c.leaf n = c.customSchema n := by
  obtain ⟨⟨u, hu⟩, hprimitive⟩ := h
  rw [leaf, hu]
  show c.scalarSchema n = _
  rw [scalarSchema, hprimitive]

theorem not_refAt_texts {ms : Members Json} (hself : "$ref" ∉ Members.names ms)
    (h : ∀ m ∈ ms, (∃ text, m.2 = .string text) ∨ ∃ texts, m.2 = Json.strings texts) :
    ¬ (Json.object ms).RefAt p r := by
  intro hr
  rcases Json.refAt_object hr with ⟨-, hget⟩ | ⟨k, q, x, -, hx, hq⟩
  · exact hself (Members.mem_names_of_get? hget)
  · rcases h _ (Members.mem_of_get? hx) with ⟨text, rfl⟩ | ⟨texts, rfl⟩
    · exact Json.not_refAt_string text hq
    · exact Json.not_refAt_strings texts hq

theorem not_refAt_identifier (n : String) : ¬ (Schema.identifier n).toJson.RefAt p r :=
  not_refAt_texts (by simp) (by simp)

theorem not_refAt_primitive (type : String) : ¬ (Schema.primitive type).toJson.RefAt p r :=
  not_refAt_texts (by simp) (by simp)

theorem not_refAt_enumeration (e : String) (values : List String) :
    ¬ (Schema.enumeration e values).toJson.RefAt p r :=
  not_refAt_texts (by simp) (by simp)

theorem not_refAt_null : ¬ Schema.null.toJson.RefAt p r := not_refAt_texts (by simp) (by simp)

theorem not_refAt_empty : ¬ Schema.empty.toJson.RefAt p r := not_refAt_texts (by simp) (by simp)

theorem not_refAt_typename (n : String) : ¬ (Schema.typename n).toJson.RefAt p r :=
  not_refAt_texts (by simp) (by simp)

theorem refAt_reference (h : (Schema.reference n).toJson.RefAt p r) :
    p = [] ∧ r = definitionPointer n := by
  rcases Json.refAt_object h with ⟨rfl, hr⟩ | ⟨k, q, x, rfl, hx, hq⟩
  · cases hr
    exact ⟨rfl, rfl⟩
  · simp only [Members.get?] at hx
    split at hx
    · cases hx
      exact absurd hq (Json.not_refAt_string _)
    · cases hx

theorem leaf_refAt (hl : c.types.Lawful) (h : (c.leaf n).toJson.RefAt p r) :
    (c.IsComponent n ∧ p = [] ∧ r = definitionPointer n) ∨ c.IsCustom n := by
  cases hn : c.types.get? n with
  | none =>
    rw [leaf, hn] at h
    exact absurd h not_refAt_empty
  | some d =>
    cases d with
    | object o =>
      cases hpolicy : c.policy o with
      | true =>
        rw [leaf_collection hl ⟨o, hn, hpolicy⟩] at h
        exact absurd h (not_refAt_identifier n)
      | false =>
        have hcomponent : c.IsComponent n := ⟨o, hn, hpolicy⟩
        rw [leaf_component hl hcomponent] at h
        exact Or.inl ⟨hcomponent, refAt_reference h⟩
    | scalar u =>
      cases hprimitive : primitiveTypes.get? n with
      | none => exact Or.inr ⟨⟨u, hn⟩, hprimitive⟩
      | some type =>
        rw [leaf, hn] at h
        simp only [scalarSchema, hprimitive] at h
        exact absurd h (not_refAt_primitive type)
    | enum e values =>
      rw [leaf, hn] at h
      exact absurd h (not_refAt_enumeration e values)
    | union u members =>
      rw [leaf, hn] at h
      exact absurd h not_refAt_empty
    | interface i =>
      rw [leaf, hn] at h
      exact absurd h not_refAt_empty
    | input i =>
      rw [leaf, hn] at h
      exact absurd h not_refAt_empty

/-! ## Schemas of type references -/

theorem fragment_follow {depth : Nat} {t : TypeRef} {s : Schema}
    (h : (c.fragment depth t).outcome = .ok s) (hp : c.types.Stands t p n) :
    s.toJson.follow p = some (c.leaf n).toJson := by
  revert p n
  apply schema_induct c (P := fun t s => ∀ n p, c.types.Stands t p n →
    s.toJson.follow p = some (c.leaf n).toJson) ?list ?object ?union ?scalar ?enum h
  case list =>
    intro t b s hitem n p hp
    cases hp with
    | item hb hp =>
      rw [Schema.item, if_pos hb]
      exact hitem _ _ hp
    | nullable hb hp =>
      rw [Schema.item, if_neg (by simp [hb])]
      exact hitem _ _ hp
  case object =>
    intro n b o hn k p hp
    cases hp with
    | here => rw [leaf, hn]; rfl
    | choice hu => rw [hn] at hu; cases hu
  case union =>
    intro n b u members choices hn hall k p hp
    cases hp with
    | here hnot => exact absurd hn (hnot u members)
    | choice hu hm hp =>
      rename_i m u' members' i p
      rw [hn, Option.some.injEq, TypeDef.union.injEq] at hu
      obtain ⟨rfl, rfl⟩ := hu
      obtain ⟨s, hs, hchoice⟩ := forall₂_getElem?_left hall hm
      have hpart : (Json.array (choices.map Schema.toJson)).part? (.item i) = some s.toJson := by
        show (choices.map Schema.toJson)[i]? = _
        rw [List.getElem?_map, hs]
        rfl
      show (Json.array (choices.map Schema.toJson)).follow (.item i :: p) = _
      rw [Json.follow_of_part? hpart]
      exact hchoice _ _ hp
  case scalar =>
    intro n b u hn k p hp
    cases hp with
    | here => rw [leaf, hn]; rfl
    | choice hu => rw [hn] at hu; cases hu
  case enum =>
    intro n b e values hn k p hp
    cases hp with
    | here => rw [leaf, hn]; rfl
    | choice hu => rw [hn] at hu; cases hu

theorem oneOf_refAt {choices : List Schema} (h : (Schema.oneOf choices).toJson.RefAt p r) :
    ∃ i q s, p = .member "oneOf" :: .item i :: q ∧ choices[i]? = some s ∧ s.toJson.RefAt q r := by
  rcases Json.refAt_object h with ⟨-, hself⟩ | ⟨k, q, x, rfl, hx, hq⟩
  · cases hself
  · simp only [Members.get?] at hx
    split at hx
    · rename_i hk
      cases hx
      obtain ⟨i, q, y, rfl, hy, hq⟩ := Json.refAt_array hq
      rw [List.getElem?_map, Option.map_eq_some_iff] at hy
      obtain ⟨s, hs, rfl⟩ := hy
      exact ⟨i, q, s, by rw [hk], hs, hq⟩
    · cases hx

theorem array_refAt {s : Schema} (h : (Schema.array s).toJson.RefAt p r) :
    ∃ q, p = .member "items" :: q ∧ s.toJson.RefAt q r := by
  rcases Json.refAt_object h with ⟨-, hself⟩ | ⟨k, q, x, rfl, hx, hq⟩
  · cases hself
  · simp only [Members.get?] at hx
    split at hx
    · cases hx
      exact absurd hq (Json.not_refAt_string _)
    · split at hx
      · rename_i hk
        cases hx
        exact ⟨q, by rw [hk], hq⟩
      · cases hx

/-- A reference in the schema of a type reference stands in that of a named type. -/
theorem fragment_refAt {depth : Nat} {t : TypeRef} {s : Schema}
    (h : (c.fragment depth t).outcome = .ok s) (hr : s.toJson.RefAt p r) :
    ∃ q q' n, c.types.Stands t q n ∧ p = q ++ q' ∧ (c.leaf n).toJson.RefAt q' r := by
  revert p
  apply schema_induct c (P := fun t s => ∀ p, s.toJson.RefAt p r →
    ∃ q q' n, c.types.Stands t q n ∧ p = q ++ q' ∧ (c.leaf n).toJson.RefAt q' r)
    ?list ?object ?union ?scalar ?enum h
  case list =>
    intro t b s hitem p hr
    obtain ⟨p, rfl, hr⟩ := array_refAt hr
    rw [Schema.item] at hr
    split at hr
    · rename_i hb
      obtain ⟨q, q', n, hq, rfl, hn⟩ := hitem _ hr
      exact ⟨_, q', n, TypeMap.Stands.item hb hq, rfl, hn⟩
    · rename_i hb
      obtain ⟨i, p, choice, rfl, hchoice, hr⟩ := oneOf_refAt hr
      match i, hchoice with
      | 0, hchoice =>
        cases hchoice
        exact absurd hr not_refAt_null
      | 1, hchoice =>
        cases hchoice
        obtain ⟨q, q', n, hq, rfl, hn⟩ := hitem _ hr
        exact ⟨_, q', n, TypeMap.Stands.nullable (by simpa using hb) hq, rfl, hn⟩
  case object =>
    intro n b o hn p hr
    refine ⟨[], p, n, TypeMap.Stands.here (by simp [hn]), rfl, ?_⟩
    rwa [leaf, hn]
  case union =>
    intro n b u members choices hn hall p hr
    obtain ⟨i, p, choice, rfl, hchoice, hr⟩ := oneOf_refAt hr
    obtain ⟨m, hm, hmember⟩ := forall₂_getElem?_right hall hchoice
    obtain ⟨q, q', k, hq, rfl, hk⟩ := hmember _ hr
    exact ⟨_, q', k, TypeMap.Stands.choice hn hm hq, rfl, hk⟩
  case scalar =>
    intro n b u hn p hr
    refine ⟨[], p, n, TypeMap.Stands.here (by simp [hn]), rfl, ?_⟩
    rwa [leaf, hn]
  case enum =>
    intro n b e values hn p hr
    exact absurd hr (not_refAt_enumeration e values)

/-! ## Shapes -/

theorem refAt_members {s : Schema} (h : (Json.object s.members).RefAt p r) : s.toJson.RefAt p r := by
  cases s with
  | keywords ms => exact h
  | always b =>
    cases b with
    | true => exact absurd h not_refAt_empty
    | false =>
      rcases Json.refAt_object h with ⟨-, hself⟩ | ⟨k, q, x, -, hx, hq⟩
      · cases hself
      · simp only [Schema.members, Members.get?] at hx
        split at hx
        · cases hx
          exact absurd hq not_refAt_empty
        · cases hx

theorem propertyOf_refAt {f : Field} {s : Schema} (h : (c.propertyOf f s).toJson.RefAt p r) :
    s.toJson.RefAt p r := by
  apply refAt_members
  rw [propertyOf_toJson] at h
  rcases Json.refAt_object h with ⟨rfl, hself⟩ | ⟨k, q, x, rfl, hx, hq⟩
  · rw [get?_propertyOf c f s (by decide) (by decide)] at hself
    exact Json.refAt_nil.mpr hself
  · have hget : Members.get? s.members k = some x := by
      by_cases hk : k = "title" ∨ k = "description"
      · rcases get?_propertyOf_annotated c f s hk hx with ⟨text, rfl⟩ | hget
        · exact absurd hq (Json.not_refAt_string text)
        · exact hget
      · rw [not_or] at hk
        rwa [get?_propertyOf c f s hk.1 hk.2] at hx
    exact Json.refAt_cons.mpr ⟨x, hget, hq⟩

/-- In a shape, the place of a named type in the type of a field, unless the property of the field
is that of the type's own name. -/
def FieldSite (types : TypeMap) (o : ObjectType) (p : Route) (n : String) : Prop :=
  ∃ f ∈ o.fields, f.name ≠ typenameProperty ∧
    ∃ q, p = .member "properties" :: .member f.name :: q ∧ types.Stands f.type q n

theorem FieldSite.unique {types : TypeMap} {o : ObjectType} (ho : o.Lawful) {p q p' q' : Route}
    {n n' : String} (h : FieldSite types o p n) (h' : FieldSite types o p' n')
    (heq : p ++ q = p' ++ q') : p = p' ∧ n = n' := by
  obtain ⟨f, hf, -, p, rfl, hp⟩ := h
  obtain ⟨f', hf', -, p', rfl, hp'⟩ := h'
  simp only [List.cons_append, List.cons.injEq, Step.member.injEq, true_and] at heq
  obtain ⟨hname, heq⟩ := heq
  obtain rfl := List.inj_on_of_nodup_map ho hf hf' hname
  obtain ⟨rfl, hn⟩ := hp.unique hp' heq
  exact ⟨rfl, hn⟩

section Shape

variable {depth : Nat} {o : ObjectType} {s : Schema}

theorem exists_mem_zip {α β : Type} {R : α → β → Prop} {xs : List α} {ys : List β}
    (h : List.Forall₂ R xs ys) {x : α} (hx : x ∈ xs) : ∃ y, (x, y) ∈ xs.zip ys ∧ R x y := by
  induction h with
  | nil => cases hx
  | cons hxy _ ih =>
    rcases List.mem_cons.mp hx with rfl | hx
    · exact ⟨_, List.mem_cons_self, hxy⟩
    · obtain ⟨y, hy, hR⟩ := ih hx
      exact ⟨y, List.mem_cons_of_mem _ hy, hR⟩

theorem shapeOf_follow (ho : o.Lawful) {fragments : List Schema} {f : Field} {s : Schema}
    (hf : (f, s) ∈ o.fields.zip fragments) (hname : f.name ≠ typenameProperty) (p : Route) :
    (c.shapeOf o fragments).toJson.follow (.member "properties" :: .member f.name :: p) =
      (c.propertyOf f s).toJson.follow p := by
  rw [shapeOf_toJson, Json.follow_member (shapeOf_properties o fragments)]
  have hproperty : (c.propertiesOf o fragments).get? f.name = some (c.propertyOf f s).toJson :=
    (propertiesOf_get?_iff ho).mpr (Or.inr ⟨hname, f, s, hf, rfl, rfl⟩)
  exact Json.follow_member hproperty p

theorem shape_follow_typename (ho : o.Lawful) (h : (c.shape depth o).outcome = .ok s) :
    s.toJson.follow [.member "properties", .member typenameProperty, .member "const"] =
      some (.string o.name) := by
  obtain ⟨fragments, -, rfl⟩ := shape_ok h
  rw [shapeOf_toJson, Json.follow_member (shapeOf_properties o fragments)]
  have htypename : (c.propertiesOf o fragments).get? typenameProperty =
      some (Schema.typename o.name).toJson := (propertiesOf_get?_iff ho).mpr (Or.inl ⟨rfl, rfl⟩)
  exact Json.follow_member htypename _

theorem shape_refAt (ho : o.Lawful) (h : (c.shape depth o).outcome = .ok s)
    (hr : s.toJson.RefAt p r) :
    ∃ q q' n, FieldSite c.types o q n ∧ p = q ++ q' ∧ (c.leaf n).toJson.RefAt q' r := by
  obtain ⟨fragments, hfragments, rfl⟩ := shape_ok h
  rw [shapeOf_toJson] at hr
  rcases Json.refAt_object hr with ⟨rfl, hself⟩ | ⟨k, p, x, rfl, hx, hr⟩
  · rw [shapeOf_get? o fragments (by decide)] at hself
    cases hself
  · by_cases hk : k = "properties"
    · subst hk
      rw [shapeOf_properties, Option.some.injEq] at hx
      subst hx
      rcases Json.refAt_object hr with ⟨rfl, hself⟩ | ⟨k, p, x, rfl, hx, hr⟩
      · rcases (propertiesOf_get?_iff ho).mp hself with ⟨-, hx⟩ | ⟨-, f, s, -, -, hx⟩
        · cases hx
        · rw [propertyOf_toJson] at hx
          cases hx
      · rcases (propertiesOf_get?_iff ho).mp hx with ⟨-, rfl⟩ | ⟨hne, f, s, hf, rfl, rfl⟩
        · exact absurd hr (not_refAt_typename _)
        · have hok := (List.forall₂_iff_zip.mp hfragments).2 hf
          obtain ⟨q, q', n, hq, rfl, hn⟩ := fragment_refAt hok (propertyOf_refAt hr)
          exact ⟨_, q', n, ⟨f, (List.of_mem_zip hf).1, hne, q, rfl, hq⟩, rfl, hn⟩
    · -- Everything else is a text or a list of texts.
      exfalso
      by_cases hdescription : k = "description"
      · subst hdescription
        rcases get?_describe_description c _ _ hx with ⟨text, rfl⟩ | hx
        · exact Json.not_refAt_string text hr
        · cases hx
      · rw [shapeOf_get? o fragments hdescription] at hx
        simp only [Members.get?] at hx
        split at hx
        · cases hx
          exact Json.not_refAt_string _ hr
        · split at hx
          · rename_i hproperties
            exact hk hproperties.symm
          · split at hx
            · cases hx
              exact Json.not_refAt_strings _ hr
            · cases hx

theorem toJson_inj {s s' : Schema} (h : s.toJson = s'.toJson) : s = s' := by
  rw [← Option.some.injEq, ← Schema.ofJson?_toJson s, h, Schema.ofJson?_toJson]

theorem part?_toJson {s : Schema} {step : Step} {x : Json} (h : s.toJson.part? step = some x) :
    s.toJson = .object s.members := by
  cases s with
  | always b => cases h
  | keywords ms => rfl

theorem shape_follow (ho : o.Lawful) (h : (c.shape depth o).outcome = .ok s)
    (hp : FieldSite c.types o p n) :
    ∃ s' : Schema, s.toJson.follow p = some s'.toJson ∧
      (∀ k, k ≠ "title" → k ≠ "description" →
        Members.get? s'.members k = Members.get? (c.leaf n).members k) ∧
      ∀ q r, s'.toJson.RefAt q r → (c.leaf n).toJson.RefAt q r := by
  obtain ⟨fragments, hfragments, rfl⟩ := shape_ok h
  obtain ⟨f, hf, hname, p, rfl, hp⟩ := hp
  obtain ⟨s, hs, hok⟩ := exists_mem_zip hfragments hf
  rw [shapeOf_follow ho hs hname]
  have hleaf := fragment_follow hok hp
  cases p with
  | nil =>
    obtain rfl := toJson_inj (Option.some.inj hleaf)
    exact ⟨c.propertyOf f (c.leaf n), rfl, fun k => get?_propertyOf c f _,
      fun _ _ => propertyOf_refAt⟩
  | cons step p =>
    obtain ⟨k, rfl, htitle, hdescription⟩ := hp.head
    refine ⟨c.leaf n, ?_, fun _ _ _ => rfl, fun _ _ => id⟩
    rw [Json.follow, Option.bind_eq_some_iff] at hleaf
    obtain ⟨x, hx, hfollow⟩ := hleaf
    rw [part?_toJson hx] at hx
    have hpart : (c.propertyOf f s).toJson.part? (.member k) = some x := by
      rw [propertyOf_toJson]
      exact (get?_propertyOf c f s htitle hdescription).trans hx
    rw [Json.follow_of_part? hpart]
    exact hfollow

end Shape

end Converter

end GraphShape
