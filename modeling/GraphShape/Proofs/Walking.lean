import GraphShape.Conversion.Shape
import GraphShape.Proofs.TypeGraph
import Mathlib.Data.List.Forall2

/-!
# What walks return

A walk that succeeds went through every part of its type. The key fact is the induction over the
type references that a walk went through, with one case for each kind of type and none for the
bound on the nesting.
-/

namespace GraphShape

/-! ## Two lists in step -/

section Forall₂

variable {α β : Type} {R : α → β → Prop} {xs : List α} {ys : List β}

theorem forall₂_getElem?_left (h : List.Forall₂ R xs ys) {i : Nat} {x : α} (hx : xs[i]? = some x) :
    ∃ y, ys[i]? = some y ∧ R x y := by
  induction h generalizing i with
  | nil => simp at hx
  | cons hxy _ ih =>
    cases i with
    | zero =>
      rw [List.getElem?_cons_zero, Option.some.injEq] at hx
      exact ⟨_, rfl, hx ▸ hxy⟩
    | succ i => exact ih hx

theorem forall₂_getElem?_right (h : List.Forall₂ R xs ys) {i : Nat} {y : β} (hy : ys[i]? = some y) :
    ∃ x, xs[i]? = some x ∧ R x y := forall₂_getElem?_left h.flip hy

theorem forall₂_mem_left (h : List.Forall₂ R xs ys) {x : α} (hx : x ∈ xs) : ∃ y ∈ ys, R x y := by
  obtain ⟨i, hi⟩ := List.getElem?_of_mem hx
  obtain ⟨y, hy, hxy⟩ := forall₂_getElem?_left h hi
  exact ⟨y, List.mem_of_getElem? hy, hxy⟩

theorem forall₂_mem_right (h : List.Forall₂ R xs ys) {y : β} (hy : y ∈ ys) : ∃ x ∈ xs, R x y :=
  forall₂_mem_left h.flip hy

theorem forall₂_eq_right {R' : α → β → Prop} {ys' : List β} (h : List.Forall₂ R xs ys)
    (h' : List.Forall₂ R' xs ys')
    (hunique : ∀ x y y', R x y → R' x y' → y = y') : ys = ys' := by
  induction h generalizing ys' with
  | nil =>
    cases h'
    rfl
  | cons hxy _ ih =>
    cases h' with
    | cons hxy' h' => rw [hunique _ _ _ hxy hxy', ih h']

end Forall₂

namespace Walk

variable {α β : Type}

theorem pure_eq (a : α) : (pure a : Walk α) = ⟨[], [], .ok a⟩ := rfl

theorem bind_of_ok {x : Walk α} {a : α} (f : α → Walk β) (h : x.outcome = .ok a) :
    x >>= f = ⟨x.mentions ++ (f a).mentions, x.events ++ (f a).events, (f a).outcome⟩ := by
  show Walk.bind x f = _
  rw [Walk.bind, h]

theorem ok_of_bind {x : Walk α} {f : α → Walk β} {b : β} (h : (x >>= f).outcome = .ok b) :
    ∃ a, x.outcome = .ok a ∧ (f a).outcome = .ok b := by
  change (Walk.bind x f).outcome = .ok b at h
  unfold Walk.bind at h
  split at h
  · simp at h
  · rename_i a ha
    exact ⟨a, ha, h⟩

theorem each_cons (f : α → Walk β) (a : α) (rest : List α) :
    each f (a :: rest) = f a >>= fun b => each f rest >>= fun bs => pure (b :: bs) := rfl

theorem each_ok {f : α → Walk β} {xs : List α} {ys : List β} (h : (each f xs).outcome = .ok ys) :
    List.Forall₂ (fun x y => (f x).outcome = .ok y) xs ys := by
  induction xs generalizing ys with
  | nil =>
    cases h
    exact List.Forall₂.nil
  | cons x rest ih =>
    rw [each_cons] at h
    obtain ⟨b, hb, h⟩ := ok_of_bind h
    obtain ⟨bs, hbs, h⟩ := ok_of_bind h
    cases h
    exact List.Forall₂.cons hb (ih hbs)

theorem each_of_forall₂ {f : α → Walk β} {xs : List α} {ys : List β}
    (h : List.Forall₂ (fun x y => (f x).outcome = .ok y) xs ys) :
    each f xs =
      ⟨xs.flatMap (fun x => (f x).mentions), xs.flatMap (fun x => (f x).events), .ok ys⟩ := by
  induction h with
  | nil => rfl
  | cons hxy _ ih => rw [each_cons, bind_of_ok _ hxy, ih, bind_of_ok _ rfl, pure_eq]; simp

end Walk

namespace Converter

variable (c : Converter)

/-! ## Scalars -/

def customSchema (name : String) : Schema := ((c.scalars.bind (fun m => m.get? name)).getD Schema.empty)

def scalarSchema (name : String) : Schema :=
  match primitiveTypes.get? name with
  | some type => Schema.primitive type
  | none => c.customSchema name

/-- What is reported of a scalar that is neither built in nor in the map. -/
def scalarReport? (name : String) : Option Event :=
  match primitiveTypes.get? name, c.scalars with
  | some _, _ => none
  | none, none => some (.scalarUnconstrained name)
  | none, some map => if map.has name then none else some (.scalarMissing name)

theorem scalar_eq (name : String) :
    c.scalar name = ⟨[], (c.scalarReport? name).toList, .ok (c.scalarSchema name)⟩ := by
  unfold scalar scalarReport? scalarSchema customSchema
  cases primitiveTypes.get? name with
  | some type => rfl
  | none =>
    cases c.scalars with
    | none => rfl
    | some map =>
      cases h : map.get? name with
      | some s => simp [h, Members.has, Walk.pure_eq]
      | none =>
        simp only [h, Members.has, Option.bind_some]
        rfl

/-! ## Type references -/

/-- Induction over a walk that succeeds. -/
theorem fragment_induct {P : TypeRef → Walk Schema → Prop}
    (list : ∀ item b mentions events s, P item ⟨mentions, events, .ok s⟩ →
      P (.list item b) ⟨mentions, events, .ok (Schema.array (Schema.item item.nonNull s))⟩)
    (object : ∀ n b o, c.types.get? n = some (.object o) →
      P (.named n b) ⟨[o], [], .ok (c.mentioned o)⟩)
    (union : ∀ n b u members (walk : String → Walk Schema) choices,
      c.types.get? n = some (.union u members) → (∀ m ∈ members, P (.named m false) (walk m)) →
      List.Forall₂ (fun m s => (walk m).outcome = .ok s) members choices →
      P (.named n b) ⟨members.flatMap (fun m => (walk m).mentions),
        members.flatMap (fun m => (walk m).events), .ok (Schema.oneOf choices)⟩)
    (scalar : ∀ n b u, c.types.get? n = some (.scalar u) →
      P (.named n b) ⟨[], (c.scalarReport? n).toList, .ok (c.scalarSchema n)⟩)
    (enum : ∀ n b e values, c.types.get? n = some (.enum e values) →
      P (.named n b) ⟨[], [], .ok (Schema.enumeration e values)⟩)
    {depth : Nat} {t : TypeRef} {s : Schema} (h : (c.fragment depth t).outcome = .ok s) :
    P t (c.fragment depth t) := by
  induction depth generalizing t s with
  | zero => simp [fragment, Walk.stop] at h
  | succ depth ih =>
    cases t with
    | list item b =>
      rw [fragment] at h ⊢
      obtain ⟨a, ha, -⟩ := Walk.ok_of_bind h
      have hitem := ih ha
      rw [Walk.bind_of_ok _ ha, Walk.pure_eq, List.append_nil, List.append_nil]
      apply list
      rwa [← ha]
    | named n b =>
      rw [fragment] at h ⊢
      cases hn : c.types.get? n with
      | none => simp [hn, Walk.fail, Walk.stop] at h
      | some d =>
        simp only [hn] at h ⊢
        cases d with
        | object o => exact object n b o hn
        | union u members =>
          obtain ⟨choices, hchoices, -⟩ := Walk.ok_of_bind h
          have hall := Walk.each_ok hchoices
          have hmembers : ∀ m ∈ members, P (.named m false) (c.fragment depth (.named m false)) := by
            intro m hm
            obtain ⟨s, -, hs⟩ := forall₂_mem_left hall hm
            exact ih hs
          simp only [Walk.each_of_forall₂ hall]
          have := union n b u members _ choices hn hmembers hall
          simpa [Walk.bind_of_ok, Walk.pure_eq] using this
        | scalar u =>
          simp only [scalar_eq]
          exact scalar n b u hn
        | enum e values => exact enum n b e values hn
        | interface i => simp [Walk.fail, Walk.stop] at h
        | input i => simp [Walk.fail, Walk.stop] at h

theorem schema_induct {P : TypeRef → Schema → Prop}
    (list : ∀ t b s, P t s → P (.list t b) (Schema.array (Schema.item t.nonNull s)))
    (object : ∀ n b o, c.types.get? n = some (.object o) → P (.named n b) (c.mentioned o))
    (union : ∀ n b u members choices, c.types.get? n = some (.union u members) →
      List.Forall₂ (fun m s => P (.named m false) s) members choices →
      P (.named n b) (Schema.oneOf choices))
    (scalar : ∀ n b u, c.types.get? n = some (.scalar u) → P (.named n b) (c.scalarSchema n))
    (enum : ∀ n b e values, c.types.get? n = some (.enum e values) →
      P (.named n b) (Schema.enumeration e values))
    {depth : Nat} {t : TypeRef} {s : Schema} (h : (c.fragment depth t).outcome = .ok s) : P t s := by
  have hall : ∀ s, (c.fragment depth t).outcome = .ok s → P t s := by
    apply fragment_induct c (P := fun t w => ∀ s, w.outcome = .ok s → P t s)
      ?list ?object ?union ?scalar ?enum h
    case list =>
      rintro t b mentions events s hitem _ ⟨⟩
      exact list t b s (hitem s rfl)
    case object =>
      rintro n b o hn _ ⟨⟩
      exact object n b o hn
    case union =>
      rintro n b u members walk choices hn hmembers hall _ ⟨⟩
      refine union n b u members choices hn ?_
      rw [List.forall₂_iff_get] at hall ⊢
      refine ⟨hall.1, fun i hm hs => ?_⟩
      exact hmembers _ (List.getElem_mem _) _ (hall.2 i hm hs)
    case scalar =>
      rintro n b u hn _ ⟨⟩
      exact scalar n b u hn
    case enum =>
      rintro n b e values hn _ ⟨⟩
      exact enum n b e values hn
  exact hall s h

/-- A walk that succeeds mentions the object types of its type, in order. -/
theorem fragment_mentions (hl : c.types.Lawful) {depth : Nat} {t : TypeRef} {s : Schema}
    (h : (c.fragment depth t).outcome = .ok s) :
    c.types.Grounded t.innerName ∧
      (c.fragment depth t).mentions.map ObjectType.name = c.types.spread t.innerName ∧
      ∀ o ∈ (c.fragment depth t).mentions, c.types.get? o.name = some (.object o) := by
  apply fragment_induct c (P := fun t w => c.types.Grounded t.innerName ∧
    w.mentions.map ObjectType.name = c.types.spread t.innerName ∧
    ∀ o ∈ w.mentions, c.types.get? o.name = some (.object o)) ?list ?object ?union ?scalar ?enum h
  case list =>
    intro item b mentions events s hitem
    exact hitem
  case object =>
    intro n b o hn
    have hname : o.name = n := hl.object_name hn
    refine ⟨TypeMap.grounded_of_not_union (by simp [TypeRef.innerName, hn]), ?_, ?_⟩
    · rw [TypeRef.innerName, TypeMap.spread_object hn, List.map_singleton, hname]
    · intro o' ho'
      rw [List.mem_singleton.mp ho', hname]
      exact hn
  case union =>
    intro n b u members walk choices hn hmembers hall
    have hg : c.types.Grounded n := by
      apply TypeMap.grounded_of_members
      rintro m ⟨u', members', hn', hm⟩
      rw [hn] at hn'
      cases hn'
      exact (hmembers m hm).1
    refine ⟨hg, ?_, ?_⟩
    · rw [TypeRef.innerName, TypeMap.spread_union hg hn, List.map_flatMap, List.flatMap_def,
        List.flatMap_def]
      congr 1
      exact List.map_congr_left (fun m hm => (hmembers m hm).2.1)
    · intro o ho
      obtain ⟨m, hm, ho⟩ := List.mem_flatMap.mp ho
      exact (hmembers m hm).2.2 o ho
  case scalar =>
    intro n b u hn
    refine ⟨TypeMap.grounded_of_not_union (by simp [TypeRef.innerName, hn]), ?_, by simp⟩
    rw [TypeRef.innerName, TypeMap.spread_other (by simp [hn]) (by simp [hn])]
    rfl
  case enum =>
    intro n b e values hn
    refine ⟨TypeMap.grounded_of_not_union (by simp [TypeRef.innerName, hn]), ?_, by simp⟩
    rw [TypeRef.innerName, TypeMap.spread_other (by simp [hn]) (by simp [hn])]
    rfl

/-! ## Object types -/

def propertyOf (f : Field) (s : Schema) : Schema :=
  c.describe f.description (s.put "title" (.string f.name))

def shapeOf (o : ObjectType) (fragments : List Schema) : Schema :=
  c.describe o.description (Schema.shape
    (properties o (List.zipWith c.propertyOf o.fields fragments)) (requiredNames o.fields))

variable {c} {depth : Nat}

theorem property_ok {f : Field} {p : Schema} (h : (c.property depth f).outcome = .ok p) :
    ∃ s, (c.fragment depth f.type).outcome = .ok s ∧ p = c.propertyOf f s := by
  rw [property] at h
  obtain ⟨s, hs, h⟩ := Walk.ok_of_bind h
  cases h
  exact ⟨s, hs, rfl⟩

theorem property_of_fragment {f : Field} {s : Schema}
    (h : (c.fragment depth f.type).outcome = .ok s) :
    c.property depth f = ⟨(c.fragment depth f.type).mentions, (c.fragment depth f.type).events,
      .ok (c.propertyOf f s)⟩ := by
  rw [property, Walk.bind_of_ok _ h, Walk.pure_eq, List.append_nil, List.append_nil]
  rfl

theorem properties_ok {fields : List Field} {schemas : List Schema}
    (h : List.Forall₂ (fun f p => (c.property depth f).outcome = .ok p) fields schemas) :
    ∃ fragments, List.Forall₂ (fun (f : Field) p => (c.fragment depth f.type).outcome = .ok p)
      fields fragments ∧ schemas = List.zipWith c.propertyOf fields fragments := by
  induction h with
  | nil => exact ⟨[], List.Forall₂.nil, rfl⟩
  | cons hf _ ih =>
    obtain ⟨s, hs, rfl⟩ := property_ok hf
    obtain ⟨fragments, hfragments, rfl⟩ := ih
    exact ⟨s :: fragments, List.Forall₂.cons hs hfragments, rfl⟩

theorem shape_ok {o : ObjectType} {s : Schema} (h : (c.shape depth o).outcome = .ok s) :
    ∃ fragments, List.Forall₂ (fun (f : Field) p => (c.fragment depth f.type).outcome = .ok p)
      o.fields fragments ∧ s = c.shapeOf o fragments := by
  rw [shape] at h
  obtain ⟨schemas, hschemas, h⟩ := Walk.ok_of_bind h
  cases h
  obtain ⟨fragments, hfragments, rfl⟩ := properties_ok (Walk.each_ok hschemas)
  exact ⟨fragments, hfragments, rfl⟩

theorem shape_eq {o : ObjectType} {s : Schema} (h : (c.shape depth o).outcome = .ok s) :
    c.shape depth o = ⟨o.fields.flatMap (fun f => (c.fragment depth f.type).mentions),
      o.fields.flatMap (fun f => (c.fragment depth f.type).events), .ok s⟩ := by
  rw [shape] at h ⊢
  obtain ⟨schemas, hschemas, h⟩ := Walk.ok_of_bind h
  have hproperty : ∀ f ∈ o.fields,
      (c.property depth f).mentions = (c.fragment depth f.type).mentions ∧
      (c.property depth f).events = (c.fragment depth f.type).events := by
    intro f hf
    obtain ⟨p, -, hp⟩ := forall₂_mem_left (Walk.each_ok hschemas) hf
    obtain ⟨s, hs, -⟩ := property_ok hp
    rw [property_of_fragment hs]
    exact ⟨rfl, rfl⟩
  rw [Walk.bind_of_ok _ hschemas, h, Walk.each_of_forall₂ (Walk.each_ok hschemas), Walk.pure_eq,
    List.append_nil, List.append_nil, List.flatMap_congr (fun f hf => (hproperty f hf).1),
    List.flatMap_congr (fun f hf => (hproperty f hf).2)]

theorem shape_mentions (hl : c.types.Lawful) {o : ObjectType} {s : Schema}
    (h : (c.shape depth o).outcome = .ok s) :
    (∀ f ∈ o.fields, c.types.Grounded f.type.innerName) ∧
      (c.shape depth o).mentions.map ObjectType.name = c.types.mentions o ∧
      ∀ m ∈ (c.shape depth o).mentions, c.types.get? m.name = some (.object m) := by
  obtain ⟨fragments, hfragments, -⟩ := shape_ok h
  have hfield : ∀ f ∈ o.fields, ∃ s, (c.fragment depth f.type).outcome = .ok s := by
    intro f hf
    obtain ⟨s, -, hs⟩ := forall₂_mem_left hfragments hf
    exact ⟨s, hs⟩
  rw [shape_eq h]
  refine ⟨?_, ?_, ?_⟩
  · intro f hf
    obtain ⟨s, hs⟩ := hfield f hf
    exact (fragment_mentions c hl hs).1
  · rw [TypeMap.mentions, List.map_flatMap, List.flatMap_def, List.flatMap_def]
    congr 1
    apply List.map_congr_left
    intro f hf
    obtain ⟨s, hs⟩ := hfield f hf
    exact (fragment_mentions c hl hs).2.1
  · intro m hm
    obtain ⟨f, hf, hm⟩ := List.mem_flatMap.mp hm
    obtain ⟨s, hs⟩ := hfield f hf
    exact (fragment_mentions c hl hs).2.2 m hm

end Converter

end GraphShape
