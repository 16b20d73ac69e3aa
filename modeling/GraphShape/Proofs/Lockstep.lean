import GraphShape.Proofs.Termination

/-!
# Two conversions in step

Two converters may give different schemas and yet go through a type in step: they mention the same
object types and stop for the same reason. The key fact is that walks are put together only from
walks, so what is in step at every leaf is in step in every document.
-/

namespace GraphShape

/-- Both stop, and for the same reason, or both give a result and the two are related. -/
inductive SameFate {α β : Type} (R : α → β → Prop) : Except Stop α → Except Stop β → Prop where
  | stopped (s : Stop) : SameFate R (.error s) (.error s)
  | done {a : α} {b : β} (h : R a b) : SameFate R (.ok a) (.ok b)

namespace SameFate

variable {α β γ δ : Type} {R : α → β → Prop} {S : γ → δ → Prop}

theorem map {x : Except Stop α} {y : Except Stop β} {f : α → γ} {g : β → δ} (h : SameFate R x y)
    (hfg : ∀ a b, x = .ok a → R a b → S (f a) (g b)) : SameFate S (x.map f) (y.map g) := by
  cases h with
  | stopped s => exact .stopped s
  | done h => exact .done (hfg _ _ rfl h)

theorem refl {R : α → α → Prop} (h : ∀ a, R a a) {x : Except Stop α} : SameFate R x x := by
  cases x with
  | error s => exact .stopped s
  | ok a => exact .done (h a)

theorem eq {x y : Except Stop α} (h : SameFate Eq x y) : x = y := by
  cases h with
  | stopped s => rfl
  | done h => rw [h]

end SameFate

namespace Walk

variable {α β γ δ ω : Type}

/-- The same mentions, the same events as far as a view shows them, and the same fate. -/
structure InStep (view : Event → Option ω) (R : α → β → Prop) (x : Walk α) (y : Walk β) :
    Prop where
  mentions : x.mentions = y.mentions
  events : x.events.filterMap view = y.events.filterMap view
  fate : SameFate R x.outcome y.outcome

variable {view : Event → Option ω} {R : α → β → Prop} {S : γ → δ → Prop}

theorem InStep.pure {a : α} {b : β} (h : R a b) : InStep view R (pure a) (pure b) :=
  ⟨rfl, rfl, .done h⟩

theorem InStep.bind {x : Walk α} {y : Walk β} {f : α → Walk γ} {g : β → Walk δ}
    (h : InStep view R x y) (hfg : ∀ a b, R a b → InStep view S (f a) (g b)) :
    InStep view S (x >>= f) (y >>= g) := by
  obtain ⟨xm, xe, xo⟩ := x
  obtain ⟨ym, ye, yo⟩ := y
  obtain ⟨hm, he, ho⟩ := h
  simp only at hm he ho
  cases ho with
  | stopped s => exact ⟨hm, he, .stopped s⟩
  | done hab =>
    obtain ⟨hm', he', ho'⟩ := hfg _ _ hab
    rw [bind_of_ok f rfl, bind_of_ok g rfl]
    refine ⟨?_, ?_, ho'⟩
    · rw [hm, hm']
    · rw [List.filterMap_append, List.filterMap_append, he, he']

theorem InStep.each {ι : Type} {f : ι → Walk α} {g : ι → Walk β} {xs : List ι}
    (h : ∀ x ∈ xs, InStep view R (f x) (g x)) :
    InStep view (List.Forall₂ R) (each f xs) (each g xs) := by
  induction xs with
  | nil => exact InStep.pure List.Forall₂.nil
  | cons x rest ih =>
    rw [each_cons, each_cons]
    apply (h x List.mem_cons_self).bind
    intro a b hab
    apply (ih (fun y hy => h y (List.mem_cons_of_mem _ hy))).bind
    intro as bs hall
    exact InStep.pure (List.Forall₂.cons hab hall)

theorem InStep.eq {x y : Walk α} (h : InStep some Eq x y) : x = y := by
  obtain ⟨hm, he, ho⟩ := h
  obtain ⟨xm, xe, xo⟩ := x
  obtain ⟨ym, ye, yo⟩ := y
  simp only [List.filterMap_some] at hm he ho
  rw [hm, he, ho.eq]

end Walk

/-- The same events as far as a view shows them, and the same fate. -/
structure Traced.InStep {α β ω : Type} (view : Event → Option ω) (R : α → β → Prop) (x : Traced α)
    (y : Traced β) : Prop where
  events : x.events.filterMap view = y.events.filterMap view
  fate : SameFate R x.outcome y.outcome

theorem Traced.InStep.eq {α : Type} {x y : Traced α} (h : InStep some Eq x y) : x = y := by
  obtain ⟨he, ho⟩ := h
  obtain ⟨xe, xo⟩ := x
  obtain ⟨ye, yo⟩ := y
  simp only [List.filterMap_some] at he ho
  rw [he, ho.eq]

/-- The same names in the same order, with related values. -/
def Members.Alike {α β : Type} (R : α → β → Prop) (xs : Members α) (ys : Members β) : Prop :=
  List.Forall₂ (fun x y => x.1 = y.1 ∧ R x.2 y.2) xs ys

namespace Members.Alike

variable {α β : Type} {R : α → β → Prop} {xs : Members α} {ys : Members β}

theorem put (h : Alike R xs ys) (n : String) {a : α} {b : β} (hab : R a b) :
    Alike R (xs.put n a) (ys.put n b) := by
  induction h with
  | nil => exact List.Forall₂.cons ⟨rfl, hab⟩ List.Forall₂.nil
  | @cons x y xs ys hxy hrest ih =>
    obtain ⟨k, u⟩ := x
    obtain ⟨k', v⟩ := y
    obtain ⟨rfl, huv⟩ := hxy
    rw [Members.put, Members.put]
    split
    · exact List.Forall₂.cons ⟨rfl, hab⟩ hrest
    · exact List.Forall₂.cons ⟨rfl, huv⟩ ih

theorem eq {xs ys : Members α} (h : Alike Eq xs ys) : xs = ys := by
  induction h with
  | nil => rfl
  | cons hxy _ ih => rw [ih, Prod.ext hxy.1 hxy.2]

end Members.Alike

namespace Converter

variable {c₁ c₂ : Converter} {depth : Nat} {ω : Type} {view : Event → Option ω}

/-! ## Type references -/

theorem fragment_inStep {R : Schema → Schema → Prop}
    (list : ∀ b s₁ s₂, R s₁ s₂ → R (Schema.array (Schema.item b s₁)) (Schema.array (Schema.item b s₂)))
    (union : ∀ cs₁ cs₂, List.Forall₂ R cs₁ cs₂ → R (Schema.oneOf cs₁) (Schema.oneOf cs₂))
    (enum : ∀ e values, R (Schema.enumeration e values) (Schema.enumeration e values)) {t : TypeRef}
    (types : ∀ k, Relation.ReflTransGen c₁.types.HasMember t.innerName k →
      c₁.types.get? k = c₂.types.get? k)
    (object : ∀ k o, Relation.ReflTransGen c₁.types.HasMember t.innerName k →
      c₁.types.get? k = some (.object o) → R (c₁.mentioned o) (c₂.mentioned o))
    (scalar : ∀ k u, Relation.ReflTransGen c₁.types.HasMember t.innerName k →
      c₁.types.get? k = some (.scalar u) → Walk.InStep view R (c₁.scalar k) (c₂.scalar k)) :
    Walk.InStep view R (c₁.fragment depth t) (c₂.fragment depth t) := by
  induction depth generalizing t with
  | zero => exact ⟨rfl, rfl, .stopped _⟩
  | succ depth ih =>
    cases t with
    | list item b =>
      rw [fragment_list, fragment_list]
      apply (ih (t := item) types object scalar).bind
      intro s₁ s₂ hs
      exact Walk.InStep.pure (list _ _ _ hs)
    | named n b =>
      have hself := types n Relation.ReflTransGen.refl
      rw [fragment, fragment, ← hself]
      cases hn : c₁.types.get? n with
      | none => exact ⟨rfl, rfl, .stopped _⟩
      | some d =>
        cases d with
        | object o => exact ⟨rfl, rfl, .done (object n o Relation.ReflTransGen.refl hn)⟩
        | union u members =>
          have hmember : ∀ m ∈ members, c₁.types.HasMember n m := fun m hm => ⟨u, members, hn, hm⟩
          apply (Walk.InStep.each (R := R) _).bind
          · intro cs₁ cs₂ hcs
            exact Walk.InStep.pure (union _ _ hcs)
          · intro m hm
            exact ih (t := .named m false)
              (fun k hk => types k (Relation.ReflTransGen.head (hmember m hm) hk))
              (fun k o hk => object k o (Relation.ReflTransGen.head (hmember m hm) hk))
              (fun k u hk => scalar k u (Relation.ReflTransGen.head (hmember m hm) hk))
        | scalar u => exact scalar n u Relation.ReflTransGen.refl hn
        | enum e values => exact ⟨rfl, rfl, .done (enum e values)⟩
        | interface i => exact ⟨rfl, rfl, .stopped _⟩
        | input i => exact ⟨rfl, rfl, .stopped _⟩

/-! ## Object types -/

theorem property_eq (c : Converter) (depth : Nat) (f : Field) :
    c.property depth f = c.fragment depth f.type >>= fun s => pure (c.propertyOf f s) := rfl

theorem shape_inStep {R S : Schema → Schema → Prop} {o : ObjectType}
    (fragments : ∀ f ∈ o.fields,
      Walk.InStep view R (c₁.fragment depth f.type) (c₂.fragment depth f.type))
    (property : ∀ f s₁ s₂, R s₁ s₂ → R (c₁.propertyOf f s₁) (c₂.propertyOf f s₂))
    (shape : ∀ ps₁ ps₂, List.Forall₂ R ps₁ ps₂ →
      S (c₁.describe o.description (Schema.shape (properties o ps₁) (requiredNames o.fields)))
        (c₂.describe o.description (Schema.shape (properties o ps₂) (requiredNames o.fields)))) :
    Walk.InStep view S (c₁.shape depth o) (c₂.shape depth o) := by
  rw [Converter.shape, Converter.shape]
  apply (Walk.InStep.each (R := R) _).bind
  · intro ps₁ ps₂ hps
    exact Walk.InStep.pure (shape ps₁ ps₂ hps)
  · intro f hf
    rw [property_eq, property_eq]
    apply (fragments f hf).bind
    intro s₁ s₂ hs
    exact Walk.InStep.pure (property f s₁ s₂ hs)

/-! ## Documents -/

/-- The same references, and definitions of the same names that are related. -/
def SameProgress (R : Schema → Schema → Prop) (p₁ p₂ : Progress) : Prop :=
  p₁.references = p₂.references ∧ Members.Alike R p₁.definitions p₂.definitions

/-- Rounds are in step when every type that they may walk is walked in step. -/
theorem discover_inStep {R : Schema → Schema → Prop} {P : ObjectType → Prop}
    (walk : ∀ o, P o → Walk.InStep view R (c₁.shape depth o) (c₂.shape depth o))
    (closed : ∀ o s, P o → (c₁.shape depth o).outcome = .ok s →
      ∀ m ∈ (c₁.shape depth o).mentions, P m)
    (n : Nat) {p₁ p₂ : Progress} (hp : SameProgress R p₁ p₂)
    (hwalked : ∀ r ∈ p₁.references, P r.2) :
    Traced.InStep view (SameProgress R) (c₁.discover depth n p₁) (c₂.discover depth n p₂) := by
  induction n generalizing p₁ p₂ with
  | zero => exact ⟨rfl, .stopped _⟩
  | succ n ih =>
    obtain ⟨hreferences, hdefinitions⟩ := id hp
    rw [discover, discover, ← hreferences, ← hdefinitions.length_eq]
    cases hnext : p₁.references[p₁.definitions.length]? with
    | none => exact ⟨rfl, .done hp⟩
    | some r =>
      obtain ⟨name, o⟩ := r
      have ho : P o := hwalked _ (List.mem_of_getElem? hnext)
      obtain ⟨hmentions, hevents, hfate⟩ := walk o ho
      have hclosed := fun s => closed o s ho
      simp only
      generalize c₁.shape depth o = w₁ at hmentions hevents hfate hclosed ⊢
      generalize c₂.shape depth o = w₂ at hmentions hevents hfate ⊢
      obtain ⟨m₁, e₁, x₁⟩ := w₁
      obtain ⟨m₂, e₂, x₂⟩ := w₂
      simp only at hmentions hevents hfate hclosed ⊢
      subst hmentions
      cases hfate with
      | stopped s =>
        refine ⟨?_, .stopped s⟩
        simp only [List.filterMap_cons, hevents]
      | @done s₁ s₂ hs =>
        obtain ⟨hlater, hend⟩ := @ih
          ⟨p₁.references.record m₁, p₁.definitions.put o.name s₁⟩
          ⟨p₁.references.record m₁, p₂.definitions.put o.name s₂⟩
          ⟨rfl, hdefinitions.put o.name hs⟩ (by
            intro r hr
            rcases References.mem_record hr with hr | ⟨hr, -, -⟩
            · exact hwalked r hr
            · exact hclosed s₁ rfl _ hr)
        refine ⟨?_, hend⟩
        simp only [List.filterMap_cons, List.filterMap_append, hevents, hlater]

theorem defineAll_inStep {R : Schema → Schema → Prop}
    (walk : ∀ o, Walk.InStep view R (c₁.shape depth o) (c₂.shape depth o)) (types : TypeMap)
    {ds₁ ds₂ : Members Schema} (hds : Members.Alike R ds₁ ds₂) :
    Traced.InStep view (Members.Alike R) (c₁.defineAll depth types ds₁)
      (c₂.defineAll depth types ds₂) := by
  induction types using TypeMap.objects_induct generalizing ds₁ ds₂ with
  | nil =>
    rw [defineAll, defineAll, hds.length_eq]
    exact ⟨rfl, .done hds⟩
  | other m rest hd ih =>
    rw [defineAll_other c₁ depth rest ds₁ hd, defineAll_other c₂ depth rest ds₂ hd]
    exact ih hds
  | object name o rest ih =>
    obtain ⟨-, hevents, hfate⟩ := walk o
    simp only [defineAll]
    generalize c₁.shape depth o = w₁ at hevents hfate ⊢
    generalize c₂.shape depth o = w₂ at hevents hfate ⊢
    obtain ⟨m₁, e₁, x₁⟩ := w₁
    obtain ⟨m₂, e₂, x₂⟩ := w₂
    simp only at hevents hfate ⊢
    cases hfate with
    | stopped s =>
      refine ⟨?_, .stopped s⟩
      simp only [List.filterMap_cons, hevents]
    | @done s₁ s₂ hs =>
      obtain ⟨hlater, hend⟩ := ih (hds.put name hs)
      refine ⟨?_, hend⟩
      simp only [List.filterMap_cons, List.filterMap_append, hevents, hlater]

end Converter

end GraphShape
