import GraphShape.Proofs.Lockstep
import GraphShape.Proofs.Shapes

/-!
# What options leave alone

The policy, the scalar map and the wish for descriptions change how a type is spelt out. The names
of properties, what is required and the type's own name are the skeleton of a shape, and no option
touches it. The key fact is that a mention is recorded whichever way it is spelt, so the walks of
two converters over one map stay in step.
-/

namespace GraphShape

structure Skeleton where
  /-- The names of the properties, in order. -/
  properties : List String
  required : List String
  /-- The schema of the type's own name. -/
  typename : Json

namespace Json

def HasSkeleton (j : Json) (k : Skeleton) : Prop :=
  ∃ properties, j.get? "properties" = some (.object properties) ∧
    Members.names properties = k.properties ∧ j.get? "required" = some (strings k.required) ∧
    Members.get? properties typenameProperty = some k.typename

def SameSkeleton (j₁ j₂ : Json) : Prop := ∃ k, j₁.HasSkeleton k ∧ j₂.HasSkeleton k

end Json

namespace Members.Alike

variable {α β : Type} {R : α → β → Prop} {xs : Members α} {ys : Members β}

theorem names_eq (h : Alike R xs ys) : Members.names xs = Members.names ys := by
  induction h with
  | nil => rfl
  | cons hxy _ ih => exact congrArg₂ List.cons hxy.1 ih

theorem foldl_put {ps : Members α} {qs : Members β} (h : Alike R ps qs) (hxs : Alike R xs ys) :
    Alike R (ps.foldl (fun ms (n, a) => Members.put ms n a) xs)
      (qs.foldl (fun ms (n, a) => Members.put ms n a) ys) := by
  induction h generalizing xs ys with
  | nil => exact hxs
  | @cons p q ps qs hpq _ ih =>
    obtain ⟨n, a⟩ := p
    obtain ⟨n', b⟩ := q
    obtain ⟨rfl, hab⟩ := hpq
    exact ih (hxs.put n hab)

theorem mapValues {γ δ : Type} {S : γ → δ → Prop} {f : α → γ} {g : β → δ} (h : Alike R xs ys)
    (hfg : ∀ a b, R a b → S (f a) (g b)) :
    Alike S (xs.map (fun m => (m.1, f m.2))) (ys.map (fun m => (m.1, g m.2))) := by
  induction h with
  | nil => exact List.Forall₂.nil
  | cons hxy _ ih => exact List.Forall₂.cons ⟨hxy.1, hfg _ _ hxy.2⟩ ih

end Members.Alike

namespace Schema

/-- The definitions of both have the same names in the same order and skeletons that are equal. -/
def SameDefinitions (doc₁ doc₂ : Schema) : Prop :=
  ∃ ds₁ ds₂, doc₁.get? definitionsKey = some (.object ds₁) ∧
    doc₂.get? definitionsKey = some (.object ds₂) ∧ Members.Alike Json.SameSkeleton ds₁ ds₂

theorem hasSkeleton_put {s : Schema} {k : Skeleton} (h : s.toJson.HasSkeleton k) (v : Json) :
    (s.put definitionsKey v).toJson.HasSkeleton k := by
  obtain ⟨ps, hps, hnames, hrequired, htypename⟩ := h
  cases s with
  | always b => cases hps
  | keywords ms =>
    refine ⟨ps, ?_, hnames, ?_, htypename⟩
    · exact (Members.get?_put_of_ne ms v (by decide)).trans hps
    · exact (Members.get?_put_of_ne ms v (by decide)).trans hrequired

theorem sameDefinitions_put (s₁ s₂ : Schema) {ds₁ ds₂ : Members Schema}
    (h : Members.Alike (fun s₁ s₂ : Schema => s₁.toJson.SameSkeleton s₂.toJson) ds₁ ds₂) :
    SameDefinitions (s₁.put definitionsKey (Converter.definitionsJson ds₁))
      (s₂.put definitionsKey (Converter.definitionsJson ds₂)) :=
  ⟨_, _, get?_put_definitions s₁ ds₁, get?_put_definitions s₂ ds₂, h.mapValues (fun _ _ hs => hs)⟩

end Schema

namespace Converter

variable {c c₁ c₂ : Converter} {depth : Nat}

/-! ## Shapes -/

theorem describe_hasSkeleton (c : Converter) (description : Option String) {properties : Members Json}
    {required : List String} {typename : Json}
    (h : Members.get? properties typenameProperty = some typename) :
    (c.describe description (Schema.shape properties required)).toJson.HasSkeleton
      ⟨Members.names properties, required, typename⟩ := by
  rw [describe_toJson c description _ rfl]
  refine ⟨properties, ?_, rfl, ?_, h⟩
  · exact get?_members_describe c description _ (by decide)
  · exact get?_members_describe c description _ (by decide)

theorem properties_alike {S : Json → Json → Prop} (hself : ∀ x, S x x) (o : ObjectType)
    {ps₁ ps₂ : List Schema}
    (h : List.Forall₂ (fun s₁ s₂ : Schema => S s₁.toJson s₂.toJson) ps₁ ps₂) :
    Members.Alike S (properties o ps₁) (properties o ps₂) := by
  unfold properties
  refine Members.Alike.put (Members.Alike.foldl_put ?_ List.Forall₂.nil) _ (hself _)
  generalize o.fields = fields
  induction h generalizing fields with
  | nil => simp [Members.Alike]
  | cons hs _ ih =>
    cases fields with
    | nil => exact List.Forall₂.nil
    | cons f rest => exact List.Forall₂.cons ⟨rfl, hs⟩ (ih rest)

theorem shape_sameSkeleton (h : c₁.types = c₂.types) (depth : Nat) (o : ObjectType) :
    Walk.InStep Event.walkedType? (fun s₁ s₂ : Schema => s₁.toJson.SameSkeleton s₂.toJson)
      (c₁.shape depth o) (c₂.shape depth o) := by
  apply shape_inStep (R := fun _ _ => True)
  · intro f _
    apply fragment_inStep
    · exact fun _ _ _ _ => trivial
    · exact fun _ _ _ => trivial
    · exact fun _ _ => trivial
    · exact fun _ _ => by rw [h]
    · exact fun _ _ _ _ => trivial
    · intro k u _ _
      have hevents : ∀ c : Converter, (c.scalar k).events.filterMap Event.walkedType? = [] :=
        fun c => List.filterMap_eq_nil_iff.mpr (fun _ he => scalar_event he)
      refine ⟨?_, by rw [hevents, hevents], ?_⟩
      · rw [scalar_eq, scalar_eq]
      · rw [scalar_eq, scalar_eq]
        exact .done trivial
  · exact fun _ _ _ _ => trivial
  · intro ps₁ ps₂ hps
    have hself : ∀ ps, Members.get? (properties o ps) typenameProperty =
        some (Schema.typename o.name).toJson := fun ps => Members.get?_put_self _ _ _
    refine ⟨_, describe_hasSkeleton c₁ o.description (hself ps₁), ?_⟩
    rw [(properties_alike (S := fun _ _ => True) (fun _ => trivial) o hps).names_eq]
    exact describe_hasSkeleton c₂ o.description (hself ps₂)

/-! ## Documents -/

theorem discover_sameSkeleton (h : c₁.types = c₂.types) (root : ObjectType) (depth rounds : Nat) :
    Traced.InStep Event.walkedType?
      (SameProgress (fun s₁ s₂ => s₁.toJson.SameSkeleton s₂.toJson))
      (c₁.discover depth rounds ⟨References.seeded root, []⟩)
      (c₂.discover depth rounds ⟨References.seeded root, []⟩) := by
  apply discover_inStep (P := fun _ => True)
  · exact fun o _ => shape_sameSkeleton h depth o
  · exact fun _ _ _ _ _ _ => trivial
  · exact ⟨rfl, List.Forall₂.nil⟩
  · exact fun _ _ => trivial

theorem discover_defines {root : ObjectType} {rounds : Nat} {p : Progress}
    (h : (c.discover depth rounds ⟨References.seeded root, []⟩).outcome = .ok p) :
    p.definitions ≠ [] := by
  -- The root is a reference from the start, so what is finished has a definition.
  obtain ⟨hrun, hdone⟩ := discover_ok h
  have hlength : 1 ≤ p.references.length := by
    clear h hdone
    induction hrun with
    | refl => exact Nat.le_refl 1
    | tail _ hstep ih =>
      obtain ⟨n, o, s, -, -, rfl⟩ := hstep
      exact Nat.le_trans ih (References.prefix_record _ _).length_le
  intro hnil
  rw [Finished, hnil, List.length_nil, List.getElem?_eq_none_iff] at hdone
  omega

theorem assemble_sameSkeleton {ds₁ ds₂ : Members Schema} (hne : ds₁ ≠ [])
    (h : Members.Alike (fun s₁ s₂ : Schema => s₁.toJson.SameSkeleton s₂.toJson) ds₁ ds₂) :
    (assemble ds₁).toJson.SameSkeleton (assemble ds₂).toJson ∧
      Schema.SameDefinitions (assemble ds₁) (assemble ds₂) := by
  cases h with
  | nil => exact absurd rfl hne
  | @cons d₁ d₂ rest₁ rest₂ hd hrest =>
    obtain ⟨-, k, hk₁, hk₂⟩ := hd
    refine ⟨⟨k, ?_, ?_⟩, Schema.sameDefinitions_put _ _ hrest⟩
    · exact Schema.hasSkeleton_put hk₁ _
    · exact Schema.hasSkeleton_put hk₂ _

/-- **Options.** Whatever the options, the same names are defined with the same skeletons. -/
theorem options_keep_skeletons (types : TypeMap) (policy₁ policy₂ : Policy)
    (scalars₁ scalars₂ : Option ScalarMap) (descriptions₁ descriptions₂ : Bool) :
    (∀ root, Traced.InStep Event.walkedType?
      (fun doc₁ doc₂ : Schema =>
        doc₁.toJson.SameSkeleton doc₂.toJson ∧ Schema.SameDefinitions doc₁ doc₂)
      (convert ⟨types, policy₁, scalars₁, descriptions₁⟩ root)
      (convert ⟨types, policy₂, scalars₂, descriptions₂⟩ root)) ∧
    Traced.InStep Event.walkedType? Schema.SameDefinitions
      (definitions ⟨types, policy₁, scalars₁, descriptions₁⟩)
      (definitions ⟨types, policy₂, scalars₂, descriptions₂⟩) := by
  have hsame : (⟨types, policy₁, scalars₁, descriptions₁⟩ : Converter).types =
      (⟨types, policy₂, scalars₂, descriptions₂⟩ : Converter).types := rfl
  constructor
  · intro root
    obtain ⟨hevents, hfate⟩ := discover_sameSkeleton hsame root
      (depth ⟨types, policy₁, scalars₁, descriptions₁⟩ (some root)) (types.objects.length + 2)
    refine ⟨hevents, hfate.map ?_⟩
    intro p₁ p₂ hrun hp
    exact assemble_sameSkeleton (discover_defines hrun) hp.2
  · obtain ⟨hevents, hfate⟩ := defineAll_inStep (fun o => shape_sameSkeleton hsame
      (depth ⟨types, policy₁, scalars₁, descriptions₁⟩ none) o) types List.Forall₂.nil
    refine ⟨hevents, hfate.map ?_⟩
    intro ds₁ ds₂ _ hds
    exact Schema.sameDefinitions_put (.keywords []) (.keywords []) hds

end Converter

end GraphShape
