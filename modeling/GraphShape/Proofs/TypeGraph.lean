import GraphShape.TypeMap.Basic
import Mathlib.Data.List.Perm.Subperm
import Mathlib.Logic.Relation

/-!
# The type graph

Object types mention object types through lists and unions, and what a root reaches is the closure
of its mentions. The key fact is that a union which does not contain itself is spread into its
object types after no more steps than the map has names.
-/

namespace GraphShape

def TypeDef.memberNames : TypeDef → List String
  | union _ members => members
  | _ => []

namespace TypeMap

/-! ## Maps as they are built -/

/-- Every definition stands under its own name, and no name has two. -/
structure Lawful (types : TypeMap) : Prop where
  nodup : (Members.names types).Nodup
  keyed : ∀ m ∈ types, m.2.name = m.1

theorem Lawful.add {types : TypeMap} (hl : types.Lawful) (d : TypeDef) : (types.add d).Lawful := by
  refine ⟨Members.nodup_names_put _ _ hl.nodup, ?_⟩
  intro m hm
  rcases Members.mem_put hm with rfl | hm
  · rfl
  · exact hl.keyed m hm

theorem ofDefs_lawful (defs : List TypeDef) : (ofDefs defs).Lawful := by
  suffices h : ∀ types : TypeMap, types.Lawful → (defs.foldl add types).Lawful from
    h [] ⟨List.nodup_nil, by simp⟩
  induction defs with
  | nil => exact fun _ hl => hl
  | cons d rest ih => exact fun types hl => ih _ (hl.add d)

theorem Lawful.rest {m : String × TypeDef} {rest : TypeMap} (hl : Lawful (m :: rest)) :
    rest.Lawful :=
  ⟨(List.nodup_cons.mp hl.nodup).2, fun m hm => hl.keyed m (List.mem_cons_of_mem _ hm)⟩

theorem Lawful.name_of_get? {types : TypeMap} (hl : types.Lawful) {n : String} {d : TypeDef}
    (h : types.get? n = some d) : d.name = n := hl.keyed _ (Members.mem_of_get? h)

theorem Lawful.object_name {types : TypeMap} (hl : types.Lawful) {n : String} {o : ObjectType}
    (h : types.get? n = some (.object o)) : o.name = n := hl.name_of_get? h

theorem object_inj {types : TypeMap} {n : String} {o o' : ObjectType}
    (h : types.get? n = some (.object o)) (h' : types.get? n = some (.object o')) : o = o' :=
  TypeDef.object.inj (Option.some.inj (h.symm.trans h'))

theorem eq_object_of_object? {d : TypeDef} {o : ObjectType} (h : d.object? = some o) :
    d = .object o := by
  cases d <;> simp only [TypeDef.object?, Option.some.injEq, reduceCtorEq] at h
  rw [h]

theorem objects_cons_other {m : String × TypeDef} (rest : TypeMap) (h : m.2.object? = none) :
    objects (m :: rest) = rest.objects := List.filterMap_cons_none h

theorem objects_cons_object (name : String) (o : ObjectType) (rest : TypeMap) :
    objects ((name, .object o) :: rest) = o :: rest.objects := rfl

/-- Induction over a map, with object types as one case. -/
@[elab_as_elim]
theorem objects_induct {P : TypeMap → Prop} (nil : P [])
    (other : ∀ m rest, m.2.object? = none → P rest → P (m :: rest))
    (object : ∀ name o rest, P rest → P ((name, .object o) :: rest)) (types : TypeMap) :
    P types := by
  induction types with
  | nil => exact nil
  | cons m rest ih =>
    cases hd : m.2.object? with
    | none => exact other m rest hd ih
    | some o =>
      obtain ⟨name, d⟩ := m
      obtain rfl := eq_object_of_object? hd
      exact object name o rest ih

theorem mem_objects {types : TypeMap} (hl : types.Lawful) (o : ObjectType) :
    o ∈ types.objects ↔ types.get? o.name = some (.object o) := by
  rw [objects, List.mem_filterMap, Members.get?_eq_some_iff hl.nodup]
  constructor
  · rintro ⟨⟨n, d⟩, hm, hd⟩
    obtain rfl := eq_object_of_object? hd
    have hn : o.name = n := hl.keyed _ hm
    exact hn ▸ hm
  · intro hm
    exact ⟨_, hm, rfl⟩

theorem Lawful.mem_objects_of_get? {types : TypeMap} (hl : types.Lawful) {n : String}
    {o : ObjectType} (h : types.get? n = some (.object o)) : o ∈ types.objects := by
  rwa [mem_objects hl, hl.object_name h]

theorem nodup_objects {types : TypeMap} (hl : types.Lawful) :
    (types.objects.map ObjectType.name).Nodup := by
  have h : (types.objects.map ObjectType.name).Sublist (Members.names types) := by
    obtain ⟨-, hk⟩ := hl
    induction types with
    | nil => exact List.Sublist.refl _
    | cons m rest ih =>
      obtain ⟨n, d⟩ := m
      have hrest := ih (fun m hm => hk m (List.mem_cons_of_mem _ hm))
      have hn := hk (n, d) List.mem_cons_self
      cases d with
      | object o =>
        simp only [TypeDef.name] at hn
        simpa [objects, TypeDef.object?, hn] using hrest
      | _ => exact List.Sublist.cons _ hrest
  exact h.nodup hl.nodup

/-! ## Unions -/

def HasMember (types : TypeMap) (n m : String) : Prop :=
  ∃ u members, types.get? n = some (.union u members) ∧ m ∈ members

/-- No union that a name leads to contains itself. -/
def Grounded (types : TypeMap) (n : String) : Prop :=
  ∀ m, Relation.ReflTransGen types.HasMember n m → ¬ Relation.TransGen types.HasMember m m

/-- No union contains itself, directly or through member unions. -/
def Acyclic (types : TypeMap) : Prop := ∀ n, ¬ Relation.TransGen types.HasMember n n

/-- The names that a scan of a name meets, with unions followed only so deep. -/
def metWithin (types : TypeMap) : Nat → String → List String
  | 0, _ => []
  | depth + 1, n =>
    n :: match types.get? n with
      | some (.union _ members) => members.flatMap (metWithin types depth)
      | _ => []

/-- The names that a scan of a name meets: the name, and what the members of a union meet, in
order. -/
def met (types : TypeMap) (n : String) : List String := types.metWithin (types.length + 1) n

def hasObject (types : TypeMap) (n : String) : Bool := ((types.get? n).bind TypeDef.object?).isSome

/-- The object types of a name in order, with unions followed only so deep. -/
def spreadWithin (types : TypeMap) : Nat → String → List String
  | 0, _ => []
  | depth + 1, n =>
    match types.get? n with
    | some (.object _) => [n]
    | some (.union _ members) => members.flatMap (spreadWithin types depth)
    | _ => []

/-- The object types that a name stands for: its own, or those of a union's members in order. No
chain of unions has more names than the map, unless one contains itself. -/
def spread (types : TypeMap) (n : String) : List String := types.spreadWithin (types.length + 1) n

/-- A name leads to an object type: it is the type's own, or that of a union with a member that
leads there. -/
inductive Leads (types : TypeMap) : String → String → Prop where
  | object {n : String} {o : ObjectType} (h : types.get? n = some (.object o)) : Leads types n n
  | member {n u m k : String} {members : List String}
    (h : types.get? n = some (.union u members)) (hm : m ∈ members) (hl : Leads types m k) :
    Leads types n k

variable {types : TypeMap}

theorem Acyclic.grounded (h : types.Acyclic) (n : String) : types.Grounded n := fun m _ => h m

theorem Grounded.member {n m : String} (h : types.Grounded n) (hm : types.HasMember n m) :
    types.Grounded m := fun k hk => h k (Relation.ReflTransGen.head hm hk)

theorem grounded_of_members {n : String} (h : ∀ m, types.HasMember n m → types.Grounded m) :
    types.Grounded n := by
  intro k hk hcycle
  rcases Relation.ReflTransGen.cases_head hk with rfl | ⟨m, hm, hmk⟩
  · obtain ⟨m, hm, hmn⟩ := Relation.TransGen.head'_iff.mp hcycle
    exact h m hm n hmn hcycle
  · exact h m hm k hmk hcycle

theorem grounded_of_not_union {n : String} (h : ∀ u members, types.get? n ≠ some (.union u members)) :
    types.Grounded n :=
  grounded_of_members (fun _ ⟨u, members, hn, _⟩ => absurd hn (h u members))

/-- Induction over the members of unions. -/
theorem Grounded.induct {P : Nat → String → Prop}
    (step : ∀ depth n, (∀ m, types.HasMember n m → P depth m) → P (depth + 1) n) {n : String}
    (hn : types.Grounded n) {depth : Nat} (hroom : types.length + 1 ≤ depth) : P depth n := by
  suffices h : ∀ (depth : Nat) (above : List String) (n : String), above.Nodup →
      (∀ v ∈ above, v ∈ Members.names types ∧ Relation.TransGen types.HasMember v n) →
      types.Grounded n → types.length + 1 ≤ depth + above.length → P depth n from
    h depth [] n List.nodup_nil (by simp) hn hroom
  intro depth
  induction depth with
  | zero =>
    -- The unions above would be more distinct names than the map has.
    intro above n hnodup habove _ hroom
    have hle := (hnodup.subperm (fun v hv => (habove v hv).1)).length_le
    rw [Members.names, List.length_map] at hle
    omega
  | succ depth ih =>
    intro above n hnodup habove hn hroom
    apply step
    intro m hm
    obtain ⟨u, members, h, -⟩ := id hm
    apply ih (n :: above) m
    · rw [List.nodup_cons]
      refine ⟨?_, hnodup⟩
      intro hmem
      exact hn n Relation.ReflTransGen.refl (habove n hmem).2
    · intro v hv
      rcases List.mem_cons.mp hv with rfl | hv
      · exact ⟨Members.mem_names_of_get? h, Relation.TransGen.single hm⟩
      · exact ⟨(habove v hv).1, (habove v hv).2.tail hm⟩
    · exact hn.member hm
    · rw [List.length_cons]
      omega

theorem Grounded.metWithin_add {n : String} (hn : types.Grounded n) {depth : Nat}
    (hroom : types.length + 1 ≤ depth) (more : Nat) :
    types.metWithin (depth + more) n = types.metWithin depth n := by
  apply hn.induct
    (P := fun depth n => types.metWithin (depth + more) n = types.metWithin depth n) ?_ hroom
  intro depth n ih
  rw [show depth + 1 + more = depth + more + 1 by omega, metWithin, metWithin]
  congr 1
  split
  · rename_i u members h
    rw [List.flatMap_def, List.flatMap_def]
    congr 1
    apply List.map_congr_left
    intro m hm
    exact ih m ⟨u, members, h, hm⟩
  · rfl

theorem met_union {n u : String} {members : List String} (hn : types.Grounded n)
    (h : types.get? n = some (.union u members)) :
    types.met n = n :: members.flatMap types.met := by
  have hmore := hn.metWithin_add (Nat.le_refl _) 1
  rw [metWithin, h] at hmore
  exact hmore.symm

theorem met_other {n : String} (h : ∀ u members, types.get? n ≠ some (.union u members)) :
    types.met n = [n] := by
  rw [met, metWithin]
  split
  · rename_i u members hn
    exact absurd hn (h u members)
  · rfl

theorem mem_metWithin {depth : Nat} {n k : String} (h : k ∈ types.metWithin depth n) :
    Relation.ReflTransGen types.HasMember n k := by
  induction depth generalizing n with
  | zero => simp [metWithin] at h
  | succ depth ih =>
    rw [metWithin] at h
    rcases List.mem_cons.mp h with rfl | h
    · exact Relation.ReflTransGen.refl
    · split at h
      · rename_i u members hn
        obtain ⟨m, hm, hk⟩ := List.mem_flatMap.mp h
        exact Relation.ReflTransGen.head ⟨u, members, hn, hm⟩ (ih hk)
      · simp at h

theorem mem_met_iff {n k : String} (hn : types.Grounded n) :
    k ∈ types.met n ↔ Relation.ReflTransGen types.HasMember n k := by
  constructor
  · exact mem_metWithin
  · intro h
    induction h using Relation.ReflTransGen.head_induction_on with
    | refl => exact List.mem_cons_self
    | head hm _ ih =>
      obtain ⟨u, members, h, hmem⟩ := id hm
      rw [met_union hn h]
      exact List.mem_cons_of_mem _ (List.mem_flatMap.mpr ⟨_, hmem, ih (hn.member hm)⟩)

theorem spreadWithin_eq (types : TypeMap) (depth : Nat) (n : String) :
    types.spreadWithin depth n = (types.metWithin depth n).filter types.hasObject := by
  induction depth generalizing n with
  | zero => rfl
  | succ depth ih =>
    rw [spreadWithin, metWithin]
    split
    · rename_i o h
      simp [hasObject, h, TypeDef.object?]
    · rename_i u members h
      simp only [h]
      rw [List.filter_cons_of_neg (by simp [hasObject, h, TypeDef.object?]), List.filter_flatMap]
      congr 1
      exact funext ih
    · rename_i hobject hunion
      cases h : types.get? n with
      | none => simp [hasObject, h]
      | some d => cases d <;> simp_all [hasObject, TypeDef.object?]

theorem spread_eq (types : TypeMap) (n : String) :
    types.spread n = (types.met n).filter types.hasObject := spreadWithin_eq types _ n

theorem spread_object {n : String} {o : ObjectType} (h : types.get? n = some (.object o)) :
    types.spread n = [n] := by
  rw [spread, spreadWithin, h]

theorem spread_union {n u : String} {members : List String} (hn : types.Grounded n)
    (h : types.get? n = some (.union u members)) : types.spread n = members.flatMap types.spread := by
  rw [spread_eq, met_union hn h, List.filter_cons_of_neg (by simp [hasObject, h, TypeDef.object?]),
    List.filter_flatMap]
  congr 1
  exact funext (fun m => (spread_eq types m).symm)

theorem spread_other {n : String} (hobject : ∀ o, types.get? n ≠ some (.object o))
    (hunion : ∀ u members, types.get? n ≠ some (.union u members)) : types.spread n = [] := by
  rw [spread, spreadWithin]
  split
  · rename_i o h
    exact absurd h (hobject o)
  · rename_i u members h
    exact absurd h (hunion u members)
  · rfl

theorem leads_of_mem_spreadWithin {depth : Nat} {n k : String}
    (h : k ∈ types.spreadWithin depth n) : types.Leads n k := by
  induction depth generalizing n with
  | zero => simp [spreadWithin] at h
  | succ depth ih =>
    rw [spreadWithin] at h
    split at h
    · rename_i o hn
      rw [List.mem_singleton.mp h]
      exact Leads.object hn
    · rename_i u members hn
      obtain ⟨m, hm, hk⟩ := List.mem_flatMap.mp h
      exact Leads.member hn hm (ih hk)
    · simp at h

theorem mem_spread_iff {n k : String} (hn : types.Grounded n) :
    k ∈ types.spread n ↔ types.Leads n k := by
  constructor
  · exact leads_of_mem_spreadWithin
  · intro h
    induction h with
    | object h =>
      rw [spread_object h]
      exact List.mem_singleton_self _
    | member h hm _ ih =>
      rw [spread_union hn h]
      exact List.mem_flatMap.mpr ⟨_, hm, ih (hn.member ⟨_, _, h, hm⟩)⟩

theorem Leads.get? {n k : String} (h : types.Leads n k) :
    ∃ o, types.get? k = some (.object o) := by
  induction h with
  | object h => exact ⟨_, h⟩
  | member _ _ _ ih => exact ih

/-! ## Mentions and what a root reaches -/

def mentions (types : TypeMap) (o : ObjectType) : List String :=
  o.fields.flatMap (fun f => types.spread f.type.innerName)

/-- Some field of an object type mentions a name, inside any lists and through any unions. -/
def Mentions (types : TypeMap) (o : ObjectType) (k : String) : Prop :=
  ∃ f ∈ o.fields, types.Leads f.type.innerName k

/-- The object type of a name, where a root stands before the map's type of its name. -/
def objectFrom (types : TypeMap) (root : ObjectType) (n : String) : Option ObjectType :=
  if n = root.name then some root else (types.get? n).bind TypeDef.object?

def Edge (types : TypeMap) (root : ObjectType) (n k : String) : Prop :=
  ∃ o, types.objectFrom root n = some o ∧ types.Mentions o k

/-- What a root reaches by any number of mentions. -/
def Reaches (types : TypeMap) (root : ObjectType) (n : String) : Prop :=
  Relation.ReflTransGen (types.Edge root) root.name n

def mentionsFrom (types : TypeMap) (root : ObjectType) (n : String) : List String :=
  ((types.objectFrom root n).map types.mentions).getD []

theorem objectFrom_root (types : TypeMap) (root : ObjectType) :
    types.objectFrom root root.name = some root := if_pos rfl

theorem objectFrom_of_ne {root : ObjectType} {n : String} {o : ObjectType} (hne : n ≠ root.name)
    (h : types.get? n = some (.object o)) : types.objectFrom root n = some o := by
  rw [objectFrom, if_neg hne, h]
  rfl

theorem get?_of_objectFrom {root : ObjectType} {n : String} {o : ObjectType} (hne : n ≠ root.name)
    (h : types.objectFrom root n = some o) : types.get? n = some (.object o) := by
  rw [objectFrom, if_neg hne, Option.bind_eq_some_iff] at h
  obtain ⟨d, hd, ho⟩ := h
  rw [hd, eq_object_of_object? ho]

theorem mem_objects_of_objectFrom (hl : types.Lawful) {root : ObjectType} {n : String} {o : ObjectType}
    (h : types.objectFrom root n = some o) : o = root ∨ o ∈ types.objects := by
  by_cases hroot : n = root.name
  · rw [hroot, objectFrom_root, Option.some.injEq] at h
    exact Or.inl h.symm
  · exact Or.inr (hl.mem_objects_of_get? (get?_of_objectFrom hroot h))

theorem mentionsFrom_eq {root : ObjectType} {n : String} {o : ObjectType}
    (h : types.objectFrom root n = some o) : types.mentionsFrom root n = types.mentions o := by
  rw [mentionsFrom, h]
  rfl

theorem mem_mentions_iff {o : ObjectType} {k : String}
    (hg : ∀ f ∈ o.fields, types.Grounded f.type.innerName) :
    k ∈ types.mentions o ↔ types.Mentions o k := by
  rw [mentions, List.mem_flatMap, Mentions]
  constructor
  · rintro ⟨f, hf, hk⟩
    exact ⟨f, hf, (mem_spread_iff (hg f hf)).mp hk⟩
  · rintro ⟨f, hf, hk⟩
    exact ⟨f, hf, (mem_spread_iff (hg f hf)).mpr hk⟩

end TypeMap

end GraphShape
