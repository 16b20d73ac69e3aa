import GraphShape.Proofs.Lockstep
import Mathlib.Data.List.Perm.Basic

/-!
# What a document depends on

The document of a root depends on the types that the root reaches and on what their fields name, and
on nothing else of the map, the policy or the scalar map. The key fact is that two converters which
agree there walk in step within equal bounds, and that no bound with room changes what is returned.
-/

namespace GraphShape

namespace Members

variable {α : Type} {ms others : Members α}

theorem get?_perm (h : ms.Perm others) (hn : (names ms).Nodup) (name : String) :
    ms.get? name = others.get? name := by
  have hn' : (names others).Nodup := (h.map Prod.fst).nodup_iff.mp hn
  apply Option.ext
  intro a
  rw [get?_eq_some_iff hn, get?_eq_some_iff hn', h.mem_iff]

theorem get?_erase_of_ne (ms : Members α) {name other : String} (h : other ≠ name) :
    (ms.erase name).get? other = ms.get? other := by
  induction ms with
  | nil => rfl
  | cons m rest ih =>
    obtain ⟨n, a⟩ := m
    unfold erase at ih ⊢
    by_cases hn : n = name
    · rw [List.filter_cons_of_neg (by simp [hn]), ih, get?, if_neg (fun heq => h (heq.symm.trans hn))]
    · rw [List.filter_cons_of_pos (by simp [hn]), get?, get?, ih]

end Members

namespace TypeMap

variable {types : TypeMap} {n : String}

theorem Lawful.erase (hl : types.Lawful) (k : String) : Lawful (Members.erase types k) :=
  ⟨(List.filter_sublist.map Prod.fst).nodup hl.nodup,
    fun m hm => hl.keyed m (List.mem_of_mem_filter hm)⟩

theorem Lawful.perm {others : TypeMap} (hl : types.Lawful) (h : types.Perm others) :
    others.Lawful :=
  ⟨(h.map Prod.fst).nodup_iff.mp hl.nodup, fun m hm => hl.keyed m (h.mem_iff.mpr hm)⟩

/-- The document of a name walks an object type. -/
def Walks (types : TypeMap) (n : String) (o : ObjectType) : Prop :=
  ∃ root m, types.get? n = some (.object root) ∧ types.Reaches root m ∧
    types.objectFrom root m = some o

/-- Some object type that the document of a name walks names a type in a field. -/
def NamedFrom (types : TypeMap) (n k : String) : Prop := ∃ o, types.Walks n o ∧ types.Names o k

theorem leads_of_hasMember {k : String} {o : ObjectType}
    (h : Relation.ReflTransGen types.HasMember n k) (hk : types.get? k = some (.object o)) :
    types.Leads n k := by
  induction h using Relation.ReflTransGen.head_induction_on with
  | refl => exact .object hk
  | head hm _ ih =>
    obtain ⟨u, members, hn, hmem⟩ := hm
    exact .member hn hmem ih

theorem Leads.hasMember {k : String} (h : types.Leads n k) :
    Relation.ReflTransGen types.HasMember n k := by
  induction h with
  | object _ => exact Relation.ReflTransGen.refl
  | member hn hm _ ih => exact Relation.ReflTransGen.head ⟨_, _, hn, hm⟩ ih

theorem Walks.names {o m : ObjectType} {k : String} (hl : types.Lawful) (h : types.Walks n o)
    (hk : types.Names o k) (hm : types.get? k = some (.object m)) : types.Walks n m := by
  obtain ⟨root, i, hroot, hreaches, ho⟩ := h
  obtain ⟨f, hf, hmember⟩ := hk
  refine ⟨root, k, hroot, hreaches.tail ⟨o, ho, f, hf, leads_of_hasMember hmember hm⟩, ?_⟩
  by_cases heq : k = root.name
  · rw [heq, objectFrom_root]
    rw [heq, hl.object_name hroot] at hm
    rw [object_inj hroot hm]
  · exact objectFrom_of_ne heq hm

/-! ### Both as lists -/

theorem walks_iff_mem (hl : types.Lawful) (ha : types.Acyclic) {root o : ObjectType}
    (hroot : types.get? n = some (.object root)) :
    types.Walks n o ↔ o ∈ (types.discoveryOrder root).filterMap (types.objectFrom root) := by
  simp only [List.mem_filterMap, mem_discoveryOrder_iff hl ha, Walks, hroot, Option.some.injEq,
    TypeDef.object.injEq]
  constructor
  · rintro ⟨_, m, rfl, hm, ho⟩
    exact ⟨m, hm, ho⟩
  · rintro ⟨m, hm, ho⟩
    exact ⟨root, m, rfl, hm, ho⟩

theorem namedFrom_iff_mem (hl : types.Lawful) (ha : types.Acyclic) {root : ObjectType} {k : String}
    (hroot : types.get? n = some (.object root)) :
    types.NamedFrom n k ↔
      k ∈ ((types.discoveryOrder root).filterMap (types.objectFrom root)).flatMap types.scan := by
  simp only [List.mem_flatMap, NamedFrom, walks_iff_mem hl ha hroot, mem_scan_iff ha]

end TypeMap

namespace Converter

variable {c c₁ c₂ : Converter} {depth : Nat} {n : String}

/-- What the walk of an object type looks up is the same. -/
structure AgreeOn (c₁ c₂ : Converter) (o : ObjectType) : Prop where
  types : ∀ k, c₁.types.Names o k → c₁.types.get? k = c₂.types.get? k
  policies : ∀ k m, c₁.types.Names o k → c₁.types.get? k = some (.object m) →
    c₁.policy m = c₂.policy m
  mapped : c₁.scalars.isSome = c₂.scalars.isSome
  scalars : ∀ k u, c₁.types.Names o k → c₁.types.get? k = some (.scalar u) →
    primitiveTypes.get? k = none →
    c₁.scalars.bind (fun m => m.get? k) = c₂.scalars.bind (fun m => m.get? k)
  descriptions : c₁.descriptions = c₂.descriptions

/-- The definition of a name is the same, and all that its document reaches: the types that are
named there, the policies for its object types and the entries for its custom scalars. -/
structure AgreeFrom (c₁ c₂ : Converter) (n : String) : Prop where
  root : c₁.types.get? n = c₂.types.get? n
  types : ∀ k, c₁.types.NamedFrom n k → c₁.types.get? k = c₂.types.get? k
  policies : ∀ o, c₁.types.Walks n o → c₁.policy o = c₂.policy o
  mapped : c₁.scalars.isSome = c₂.scalars.isSome
  scalars : ∀ k u, c₁.types.NamedFrom n k → c₁.types.get? k = some (.scalar u) →
    primitiveTypes.get? k = none →
    c₁.scalars.bind (fun m => m.get? k) = c₂.scalars.bind (fun m => m.get? k)
  descriptions : c₁.descriptions = c₂.descriptions

theorem AgreeFrom.on (hl : c₁.types.Lawful) (h : AgreeFrom c₁ c₂ n) {o : ObjectType}
    (ho : c₁.types.Walks n o) : AgreeOn c₁ c₂ o where
  types k hk := h.types k ⟨o, ho, hk⟩
  policies _ m hk hm := h.policies m (ho.names hl hk hm)
  mapped := h.mapped
  scalars k u hk := h.scalars k u ⟨o, ho, hk⟩
  descriptions := h.descriptions

/-! ## Walks -/

theorem scalar_congr {k : String} (mapped : c₁.scalars.isSome = c₂.scalars.isSome)
    (h : primitiveTypes.get? k = none →
      c₁.scalars.bind (fun m => m.get? k) = c₂.scalars.bind (fun m => m.get? k)) :
    c₁.scalar k = c₂.scalar k := by
  unfold scalar
  cases hp : primitiveTypes.get? k with
  | some t => rfl
  | none =>
    have hentry := h hp
    cases h₁ : c₁.scalars with
    | none =>
      cases h₂ : c₂.scalars with
      | none => rfl
      | some m₂ => simp [h₁, h₂] at mapped
    | some m₁ =>
      cases h₂ : c₂.scalars with
      | none => simp [h₁, h₂] at mapped
      | some m₂ =>
        rw [h₁, h₂, Option.bind_some, Option.bind_some] at hentry
        simp only [hentry]

theorem describe_congr (h : c₁.descriptions = c₂.descriptions) (description : Option String)
    (s : Schema) : c₁.describe description s = c₂.describe description s := by
  unfold describe
  rw [h]

theorem AgreeOn.shape_eq {o : ObjectType} (h : AgreeOn c₁ c₂ o) (depth : Nat) :
    c₁.shape depth o = c₂.shape depth o := by
  apply Walk.InStep.eq
  apply shape_inStep (R := Eq)
  · intro f hf
    apply fragment_inStep
    · rintro b s _ rfl
      rfl
    · intro cs₁ cs₂ hcs
      rw [List.forall₂_eq_eq_eq] at hcs
      rw [hcs]
    · exact fun _ _ => rfl
    · exact fun k hk => h.types k ⟨f, hf, hk⟩
    · intro k m hk hm
      rw [mentioned, mentioned, h.policies k m ⟨f, hf, hk⟩ hm]
    · intro k u hk hu
      have heq := scalar_congr h.mapped (h.scalars k u ⟨f, hf, hk⟩ hu)
      rw [← heq, scalar_eq]
      exact ⟨rfl, rfl, .done rfl⟩
  · rintro f s _ rfl
    rw [propertyOf, propertyOf, describe_congr h.descriptions]
  · intro ps₁ ps₂ hps
    rw [List.forall₂_eq_eq_eq] at hps
    rw [hps, describe_congr h.descriptions]

/-! ## The document of a root -/

/-- The same outcome, and the same events where the run returns. -/
def SameRun (x y : Traced Schema) : Prop :=
  x.outcome = y.outcome ∧ (Returns x.outcome → x = y)

theorem convertWithin_congr (hl : c₁.types.Lawful) (h : AgreeFrom c₁ c₂ n) {root : ObjectType}
    (hroot : c₁.types.get? n = some (.object root)) (depth rounds : Nat) :
    c₁.convertWithin root depth rounds = c₂.convertWithin root depth rounds := by
  have hrun : Traced.InStep some (SameProgress Eq)
      (c₁.discover depth rounds ⟨References.seeded root, []⟩)
      (c₂.discover depth rounds ⟨References.seeded root, []⟩) := by
    apply discover_inStep (P := c₁.types.Walks n)
    · intro o ho
      rw [(h.on hl ho).shape_eq depth]
      exact ⟨rfl, rfl, .refl (fun _ => rfl)⟩
    · intro o s ho hs m hm
      obtain ⟨hgrounded, hmentions, hmap⟩ := shape_mentions hl hs
      have hmem : m.name ∈ c₁.types.mentions o := hmentions ▸ List.mem_map_of_mem hm
      obtain ⟨f, hf, hleads⟩ := (TypeMap.mem_mentions_iff hgrounded).mp hmem
      exact ho.names hl ⟨f, hf, hleads.hasMember⟩ (hmap m hm)
    · exact ⟨rfl, List.Forall₂.nil⟩
    · intro r hr
      obtain rfl := List.mem_singleton.mp hr
      exact ⟨root, root.name, hroot, Relation.ReflTransGen.refl, TypeMap.objectFrom_root _ _⟩
  apply Traced.InStep.eq
  refine ⟨hrun.events, hrun.fate.map ?_⟩
  intro p₁ p₂ _ hp
  rw [hp.2.eq]

theorem SameRun.of_eq {x y : Traced Schema} (h : x = y) : SameRun x y :=
  ⟨congrArg Traced.outcome h, fun _ => h⟩

theorem convert_sameRun (hl₁ : c₁.types.Lawful) (hl₂ : c₂.types.Lawful) (h : AgreeFrom c₁ c₂ n)
    {root : ObjectType} (hroot : c₁.types.get? n = some (.object root)) :
    SameRun (c₁.convert root) (c₂.convert root) := by
  -- Both runs are compared within bounds that have room for either.
  obtain ⟨depth, hdepth₁, hdepth₂⟩ : ∃ k, c₁.depth (some root) ≤ k ∧ c₂.depth (some root) ≤ k :=
    ⟨_, Nat.le_max_left _ _, Nat.le_max_right _ _⟩
  obtain ⟨rounds, hrounds₁, hrounds₂⟩ : ∃ k, c₁.types.objects.length + 2 ≤ k ∧
      c₂.types.objects.length + 2 ≤ k := ⟨_, Nat.le_max_left _ _, Nat.le_max_right _ _⟩
  have hsame := convertWithin_congr hl₁ h hroot depth rounds
  by_cases h₁ : Returns (c₁.convert root).outcome
  · have hwide := convertWithin_settled hl₁ h₁ hdepth₁ hrounds₁
    have h₂ : Returns (c₂.convertWithin root depth rounds).outcome := by
      rwa [← hsame, hwide]
    apply SameRun.of_eq
    calc c₁.convert root = c₁.convertWithin root depth rounds := hwide.symm
      _ = c₂.convertWithin root depth rounds := hsame
      _ = c₂.convert root := (convertWithin_settled hl₂ h₂ (Nat.le_refl _) (Nat.le_refl _)).symm
  · refine ⟨?_, fun h => absurd h h₁⟩
    have h₂ : ¬ Returns (c₂.convert root).outcome := by
      intro h₂
      apply h₁
      have hwide := convertWithin_settled hl₂ h₂ hdepth₂ hrounds₂
      have hreturns : Returns (c₁.convertWithin root depth rounds).outcome := by
        rwa [hsame, hwide]
      rw [convert_eq_within, convertWithin_settled hl₁ hreturns (Nat.le_refl _) (Nat.le_refl _)]
      exact hreturns
    rw [Classical.not_not.mp h₁, Classical.not_not.mp h₂]

theorem convertNamed_sameRun (hl₁ : c₁.types.Lawful) (hl₂ : c₂.types.Lawful)
    (h : AgreeFrom c₁ c₂ n) : SameRun (c₁.convertNamed n) (c₂.convertNamed n) := by
  rw [convertNamed, convertNamed, ← h.root]
  cases hn : c₁.types.get? n with
  | none => exact SameRun.of_eq rfl
  | some d =>
    cases d with
    | object root => exact convert_sameRun hl₁ hl₂ h hn
    | _ => exact SameRun.of_eq rfl

/-! ## Changes that no root notices -/

theorem agreeFrom_types {types : TypeMap} (root : c.types.get? n = types.get? n)
    (named : ∀ k, c.types.NamedFrom n k → c.types.get? k = types.get? k) :
    AgreeFrom c ⟨types, c.policy, c.scalars, c.descriptions⟩ n :=
  ⟨root, named, fun _ _ => rfl, rfl, fun _ _ _ _ _ => rfl, rfl⟩

theorem agreeFrom_scalar (c : Converter) (n : String) {k t : String}
    (hk : primitiveTypes.get? k = some t) (s : Schema) :
    AgreeFrom c ⟨c.types, c.policy, c.scalars.map (fun m => Members.put m k s), c.descriptions⟩ n := by
  refine ⟨rfl, fun _ _ => rfl, fun _ _ => rfl, by simp, ?_, rfl⟩
  intro i u _ _ hi
  have hne : i ≠ k := by
    rintro rfl
    rw [hk] at hi
    cases hi
  cases c.scalars with
  | none => rfl
  | some m => exact (Members.get?_put_of_ne m s hne).symm

/-! ## The whole map in another order -/

theorem foldl_max_perm {xs ys : List Nat} (h : xs.Perm ys) (a : Nat) :
    xs.foldl max a = ys.foldl max a := by
  induction h generalizing a with
  | nil => rfl
  | cons x _ ih => exact ih (max a x)
  | swap x y l => rw [List.foldl_cons, List.foldl_cons, List.foldl_cons, List.foldl_cons,
      Nat.max_right_comm]
  | trans _ _ ih ih' => rw [ih, ih']

theorem depth_perm (h : c₁.types.Perm c₂.types) : c₁.depth none = c₂.depth none := by
  have hobjects : c₁.types.objects.Perm c₂.types.objects := h.filterMap _
  simp only [depth, Option.toList_none, List.nil_append, h.length_eq]
  rw [foldl_max_perm (hobjects.map nesting)]

theorem definitions_perm (hl₁ : c₁.types.Lawful) (hl₂ : c₂.types.Lawful)
    (h : c₁.types.Perm c₂.types)
    (hshape : ∀ o, c₁.shape (c₁.depth none) o = c₂.shape (c₁.depth none) o) :
    ((∃ all, c₁.definitions.outcome = .ok all) ↔ ∃ all, c₂.definitions.outcome = .ok all) ∧
      ∀ all₁ all₂, c₁.definitions.outcome = .ok all₁ → c₂.definitions.outcome = .ok all₂ →
        all₁.definitions.Perm all₂.definitions := by
  have hobjects : c₁.types.objects.Perm c₂.types.objects := h.filterMap _
  refine ⟨?_, ?_⟩
  · rw [definitions_succeeds_iff hl₁, definitions_succeeds_iff hl₂, ← depth_perm h]
    simp only [hshape, hobjects.mem_iff]
  · intro all₁ all₂ h₁ h₂
    obtain ⟨ds₁, rfl, hds₁⟩ := definitions_ok hl₁ h₁
    obtain ⟨ds₂, rfl, hds₂⟩ := definitions_ok hl₂ h₂
    have hds₂' : Shaped c₁ (c₁.depth none) c₂.types.objects ds₂ := by
      rw [← depth_perm h] at hds₂
      exact hds₂.imp (fun o d hd => ⟨hd.1, by rw [hshape, hd.2]⟩)
    obtain ⟨ds, hds, hperm⟩ := List.perm_comp_forall₂ hobjects hds₂'
    obtain rfl : ds₁ = ds := by
      apply forall₂_eq_right hds₁ hds
      rintro o ⟨m, s⟩ ⟨m', s'⟩ ⟨rfl, hs⟩ ⟨rfl, hs'⟩
      exact Prod.ext rfl (Except.ok.inj (hs.symm.trans hs'))
    rw [Schema.definitions_put, Schema.definitions_put]
    exact hperm.map _

theorem convertNamed_returns (hl : c.types.Lawful) (ha : c.types.Acyclic) (n : String) :
    Returns (c.convertNamed n).outcome := by
  rw [convertNamed]
  split
  · exact (convert_endsIn hl ha _).returns
  · rintro ⟨⟩
  · rintro ⟨⟩

/-- **Locality.** What a name does not reach has no part in its conversion. -/
theorem conversions_are_local {c : Converter} (hl : c.types.Lawful) :
    (∀ other : Converter, other.types.Lawful → ∀ n, AgreeFrom c other n →
      SameRun (c.convertNamed n) (other.convertNamed n) ∧
        (c.types.Acyclic → c.convertNamed n = other.convertNamed n)) ∧
    -- A type that is not named from there can be added, changed or removed.
    (∀ n d, d.name ≠ n → ¬ c.types.NamedFrom n d.name →
      SameRun (c.convertNamed n) (convertNamed { c with types := c.types.add d } n) ∧
        SameRun (c.convertNamed n)
          (convertNamed { c with types := Members.erase c.types d.name } n)) ∧
    (∀ n k t s, primitiveTypes.get? k = some t → SameRun (c.convertNamed n)
      (convertNamed { c with scalars := c.scalars.map (fun m => Members.put m k s) } n)) ∧
    -- The map can have any order.
    ∀ types : TypeMap, c.types.Perm types →
      (∀ n, SameRun (c.convertNamed n) (convertNamed { c with types := types } n)) ∧
      ((∃ all, c.definitions.outcome = .ok all) ↔
        ∃ all, (definitions { c with types := types }).outcome = .ok all) ∧
      ∀ all₁ all₂, c.definitions.outcome = .ok all₁ →
        (definitions { c with types := types }).outcome = .ok all₂ →
        all₁.definitions.Perm all₂.definitions := by
  refine ⟨?_, ?_, ?_, ?_⟩
  · intro other hl' n h
    have hsame := convertNamed_sameRun hl hl' h
    exact ⟨hsame, fun ha => hsame.2 (convertNamed_returns hl ha n)⟩
  · intro n d hd hnamed
    have hne : ∀ k, c.types.NamedFrom n k → k ≠ d.name := fun k hk heq => hnamed (heq ▸ hk)
    constructor
    · apply convertNamed_sameRun hl (hl.add d)
      apply agreeFrom_types
      · exact (Members.get?_put_of_ne _ _ hd.symm).symm
      · exact fun k hk => (Members.get?_put_of_ne _ _ (hne k hk)).symm
    · apply convertNamed_sameRun hl (hl.erase d.name)
      apply agreeFrom_types
      · exact (Members.get?_erase_of_ne _ hd.symm).symm
      · exact fun k hk => (Members.get?_erase_of_ne _ (hne k hk)).symm
  · intro n k t s hk
    exact convertNamed_sameRun hl hl (agreeFrom_scalar c n hk s)
  · intro types h
    have hget : ∀ k, c.types.get? k = Members.get? types k := Members.get?_perm h hl.nodup
    refine ⟨?_, ?_⟩
    · intro n
      exact convertNamed_sameRun hl (hl.perm h) (agreeFrom_types (hget n) (fun k _ => hget k))
    · apply definitions_perm hl (hl.perm h) h
      intro o
      have hagree : AgreeOn c { c with types := types } o :=
        ⟨fun k _ => hget k, fun _ _ _ _ => rfl, rfl, fun _ _ _ _ _ => rfl, rfl⟩
      exact hagree.shape_eq _

/-- The types of the books in another order, without the one that nothing mentions. -/
def shelvedTypes : TypeMap := TypeMap.ofDefs
  [.interface "Node", .scalar "String",
    .object ⟨"Cover", none, [⟨"title", .named "String" true, none⟩]⟩,
    .object ⟨"Page", none,
      [⟨"next", .named "Page" false, none⟩, ⟨"book", .named "Book" true, none⟩]⟩,
    .union "Part" ["Cover", "Page"],
    .object ⟨"Book", none, [⟨"parts", .list (.list (.named "Part" false) true) false, none⟩]⟩]

theorem conversions_are_local_shelved : bookTypes.Lawful ∧ shelvedTypes.Lawful ∧
    AgreeFrom ⟨bookTypes, Policy.never, some [], true⟩
      ⟨shelvedTypes, Policy.ofNames ["Stray"], some [("String", Schema.empty)], true⟩ "Page" ∧
    convertNamed ⟨bookTypes, Policy.never, some [], true⟩ "Page" =
      convertNamed ⟨shelvedTypes, Policy.ofNames ["Stray"], some [("String", Schema.empty)], true⟩
        "Page" ∧
    SameRun (convertNamed ⟨bookTypes, Policy.never, some [], true⟩ "Page")
      (convertNamed ⟨bookTypes.add (.input "Stray"), Policy.never, some [], true⟩ "Page") ∧
    ∃ all, (definitions ⟨bookTypes.reverse, Policy.never, some [], true⟩).outcome = .ok all := by
  have hl : bookTypes.Lawful := TypeMap.ofDefs_lawful _
  have hl' : shelvedTypes.Lawful := TypeMap.ofDefs_lawful _
  have ha : bookTypes.Acyclic := (unionsOfObjects_of_all (by decide)).acyclic
  have hnamed := fun k => TypeMap.namedFrom_iff_mem (k := k) (n := "Page") hl ha rfl
  have hwalks := fun o => TypeMap.walks_iff_mem (o := o) (n := "Page") hl ha rfl
  have hagree : AgreeFrom ⟨bookTypes, Policy.never, some [], true⟩
      ⟨shelvedTypes, Policy.ofNames ["Stray"], some [("String", Schema.empty)], true⟩ "Page" := by
    refine ⟨by decide, ?_, ?_, rfl, ?_, rfl⟩
    · simp only [hnamed]
      decide
    · simp only [hwalks]
      decide
    · intro k u _ _ hk
      have hne : "String" ≠ k := by
        rintro rfl
        revert hk
        decide
      simp [Members.get?, hne]
  obtain ⟨hlocal, hchange, -, hperm⟩ :=
    conversions_are_local (c := ⟨bookTypes, Policy.never, some [], true⟩) hl
  have hstray : ¬ bookTypes.NamedFrom "Page" "Stray" := by
    rw [hnamed]
    decide
  obtain ⟨-, hsuccess, -⟩ := hperm bookTypes.reverse (List.reverse_perm bookTypes).symm
  exact ⟨hl, hl', hagree, (hlocal _ hl' "Page" hagree).2 ha,
    (hchange "Page" (.input "Stray") (by decide) hstray).1, hsuccess.mp (exists_ok (by decide))⟩

end Converter

end GraphShape
