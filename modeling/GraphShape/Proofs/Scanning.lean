import GraphShape.Conversion.Document
import GraphShape.Proofs.Walking

/-!
# Where walks stop

A walk stops at the first name of its type that is unknown or of a kind that has no schema. The key
fact is that a walk looks at the names of a type just in the order of a scan, and that the bound on
the nesting leaves room for all lists and for every chain of unions.
-/

namespace GraphShape

/-- There is a result, or the problem is what stopped it. -/
def EndsIn {α : Type} (outcome : Except Stop α) (problem : Option ConversionProblem) : Prop :=
  match problem with
  | none => ∃ a, outcome = .ok a
  | some p => outcome = .error (.problem p)

theorem findSome?_flatMap {α β γ : Type} (f : α → List β) (g : β → Option γ) (xs : List α) :
    (xs.flatMap f).findSome? g = xs.findSome? (fun x => (f x).findSome? g) := by
  induction xs with
  | nil => rfl
  | cons x rest ih =>
    rw [List.flatMap_cons, List.findSome?_append, ih, List.findSome?_cons]
    cases (f x).findSome? g <;> rfl

namespace EndsIn

variable {α β : Type}

theorem ok_iff {outcome : Except Stop α} {problem : Option ConversionProblem}
    (h : EndsIn outcome problem) : (∃ a, outcome = .ok a) ↔ problem = none := by
  cases problem with
  | none => exact ⟨fun _ => rfl, fun _ => h⟩
  | some p =>
    constructor
    · rintro ⟨a, ha⟩
      rw [show outcome = .error (.problem p) from h] at ha
      cases ha
    · intro hp
      cases hp

theorem error_iff {outcome : Except Stop α} {problem : Option ConversionProblem}
    (h : EndsIn outcome problem) (stop : Stop) :
    outcome = .error stop ↔ ∃ p, problem = some p ∧ stop = .problem p := by
  cases problem with
  | none =>
    obtain ⟨a, ha⟩ := h
    simp [ha]
  | some p =>
    rw [show outcome = .error (.problem p) from h]
    simp [eq_comm]

theorem bind_pure {x : Walk α} {problem : Option ConversionProblem} (g : α → β)
    (h : EndsIn x.outcome problem) : EndsIn (x >>= fun a => pure (g a)).outcome problem := by
  cases problem with
  | none =>
    obtain ⟨a, ha⟩ := h
    rw [Walk.bind_of_ok _ ha]
    exact ⟨g a, rfl⟩
  | some p =>
    show (Walk.bind x _).outcome = _
    rw [Walk.bind, show x.outcome = .error (.problem p) from h]

theorem each {f : α → Walk β} {problem : α → Option ConversionProblem} {xs : List α}
    (h : ∀ x ∈ xs, EndsIn (f x).outcome (problem x)) :
    EndsIn (Walk.each f xs).outcome (xs.findSome? problem) := by
  induction xs with
  | nil => exact ⟨[], rfl⟩
  | cons x rest ih =>
    have hx := h x List.mem_cons_self
    have hrest := ih (fun y hy => h y (List.mem_cons_of_mem _ hy))
    rw [Walk.each_cons, List.findSome?_cons]
    cases hp : problem x with
    | none =>
      rw [hp] at hx
      obtain ⟨b, hb⟩ := hx
      rw [Walk.bind_of_ok _ hb]
      exact hrest.bind_pure _
    | some p =>
      rw [hp] at hx
      show (Walk.bind (f x) _).outcome = _
      rw [Walk.bind, show (f x).outcome = .error (.problem p) from hx]

end EndsIn

namespace TypeMap

/-! ## Problems of names -/

/-- Why a name has no schema. -/
def problem? (types : TypeMap) (n : String) : Option ConversionProblem :=
  match types.get? n with
  | none => some (.unknownType n)
  | some (.interface _) => some (.unsupportedKind n "interface")
  | some (.input _) => some (.unsupportedKind n "input object")
  | some _ => none

def firstProblem (types : TypeMap) (names : List String) : Option ConversionProblem :=
  names.findSome? types.problem?

/-- The names that a scan of an object type meets, field after field. -/
def scan (types : TypeMap) (o : ObjectType) : List String :=
  o.fields.flatMap (fun f => types.met f.type.innerName)

/-- The map has a name as an object type, a union, a scalar or an enum. -/
def Supports (types : TypeMap) (n : String) : Prop :=
  (∃ o, types.get? n = some (.object o)) ∨ (∃ u members, types.get? n = some (.union u members)) ∨
    (∃ u, types.get? n = some (.scalar u)) ∨ ∃ e values, types.get? n = some (.enum e values)

variable {types : TypeMap}

theorem problem?_eq_none_iff {n : String} : types.problem? n = none ↔ types.Supports n := by
  unfold problem? Supports
  cases types.get? n with
  | none => simp
  | some d => cases d <;> simp

theorem problem?_of_supports {n : String} (h : types.Supports n) : types.problem? n = none :=
  problem?_eq_none_iff.mpr h

theorem firstProblem_eq_none_iff {names : List String} :
    types.firstProblem names = none ↔ ∀ n ∈ names, types.Supports n :=
  List.findSome?_eq_none_iff.trans (forall₂_congr (fun _ _ => problem?_eq_none_iff))

theorem firstProblem_met_union {n u : String} {members : List String} (hn : types.Grounded n)
    (h : types.get? n = some (.union u members)) :
    types.firstProblem (types.met n) =
      members.findSome? (fun m => types.firstProblem (types.met m)) := by
  have hself : types.problem? n = none := problem?_of_supports (Or.inr (Or.inl ⟨u, members, h⟩))
  rw [met_union hn h, firstProblem, List.findSome?_cons, hself]
  exact findSome?_flatMap _ _ members

theorem firstProblem_met_other {n : String}
    (h : ∀ u members, types.get? n ≠ some (.union u members)) :
    types.firstProblem (types.met n) = types.problem? n := by
  rw [met_other h, firstProblem, List.findSome?_singleton]

theorem firstProblem_scan (types : TypeMap) (o : ObjectType) :
    types.firstProblem (types.scan o) =
      o.fields.findSome? (fun f => types.firstProblem (types.met f.type.innerName)) :=
  findSome?_flatMap _ _ o.fields

/-- All names that the fields of an object type mention, unions and their members included. -/
def Names (types : TypeMap) (o : ObjectType) (k : String) : Prop :=
  ∃ f ∈ o.fields, Relation.ReflTransGen types.HasMember f.type.innerName k

theorem mem_scan_iff (ha : types.Acyclic) {o : ObjectType} {k : String} :
    k ∈ types.scan o ↔ types.Names o k := by
  rw [scan, List.mem_flatMap, Names]
  exact exists_congr (fun f => and_congr_right (fun _ => mem_met_iff (ha.grounded _)))

end TypeMap

namespace Converter

variable {c : Converter} {depth : Nat}

/-! ## Walks with room -/

theorem fragment_named_endsIn {n : String} (hn : c.types.Grounded n)
    (hroom : c.types.length + 1 ≤ depth) (b : Bool) :
    EndsIn (c.fragment depth (.named n b)).outcome (c.types.firstProblem (c.types.met n)) := by
  revert b
  refine hn.induct (P := fun depth n => c.types.Grounded n → ∀ b,
    EndsIn (c.fragment depth (.named n b)).outcome (c.types.firstProblem (c.types.met n)))
    ?_ hroom hn
  intro depth n ih hn b
  rw [fragment]
  cases h : c.types.get? n with
  | none =>
    rw [TypeMap.firstProblem_met_other (by simp [h]), TypeMap.problem?, h]
    rfl
  | some d =>
    cases d with
    | union u members =>
      rw [TypeMap.firstProblem_met_union hn h]
      apply EndsIn.bind_pure
      apply EndsIn.each
      intro m hm
      have hmember : c.types.HasMember n m := ⟨u, members, h, hm⟩
      exact ih m hmember (hn.member hmember) false
    | object o =>
      rw [TypeMap.firstProblem_met_other (by simp [h]), TypeMap.problem?, h]
      exact ⟨_, rfl⟩
    | scalar u =>
      rw [TypeMap.firstProblem_met_other (by simp [h]), TypeMap.problem?, h]
      exact ⟨c.scalarSchema n, congrArg Walk.outcome (c.scalar_eq n)⟩
    | enum e values =>
      rw [TypeMap.firstProblem_met_other (by simp [h]), TypeMap.problem?, h]
      exact ⟨_, rfl⟩
    | interface i =>
      rw [TypeMap.firstProblem_met_other (by simp [h]), TypeMap.problem?, h]
      rfl
    | input i =>
      rw [TypeMap.firstProblem_met_other (by simp [h]), TypeMap.problem?, h]
      rfl

theorem fragment_endsIn {t : TypeRef} (ht : c.types.Grounded t.innerName)
    (hroom : t.nesting + c.types.length + 1 ≤ depth) :
    EndsIn (c.fragment depth t).outcome (c.types.firstProblem (c.types.met t.innerName)) := by
  induction t generalizing depth with
  | named n b =>
    rw [TypeRef.nesting] at hroom
    exact fragment_named_endsIn ht (by omega) b
  | list item b ih =>
    rw [TypeRef.nesting] at hroom
    obtain ⟨depth, rfl⟩ : ∃ d, depth = d + 1 := ⟨depth - 1, by omega⟩
    rw [fragment]
    exact (ih ht (by omega)).bind_pure _

theorem shape_endsIn (ha : c.types.Acyclic) {o : ObjectType}
    (hroom : ∀ f ∈ o.fields, f.type.nesting + c.types.length + 1 ≤ depth) :
    EndsIn (c.shape depth o).outcome (c.types.firstProblem (c.types.scan o)) := by
  rw [shape, TypeMap.firstProblem_scan]
  apply EndsIn.bind_pure
  apply EndsIn.each
  intro f hf
  rw [property]
  exact (fragment_endsIn (ha.grounded _) (hroom f hf)).bind_pure _

theorem le_foldl_max (xs : List Nat) {x a : Nat} (h : x ≤ a ∨ x ∈ xs) : x ≤ xs.foldl max a := by
  induction xs generalizing a with
  | nil => simpa using h
  | cons y rest ih =>
    rw [List.foldl_cons]
    apply ih
    rcases h with h | h
    · left
      omega
    · rcases List.mem_cons.mp h with rfl | h
      · left
        omega
      · exact Or.inr h

theorem nesting_le_depth {root : Option ObjectType} {o : ObjectType}
    (ho : root = some o ∨ o ∈ c.types.objects) {f : Field} (hf : f ∈ o.fields) :
    f.type.nesting + c.types.length + 1 ≤ c.depth root := by
  have hfield : f.type.nesting ≤ nesting o :=
    le_foldl_max _ (Or.inr (List.mem_map_of_mem hf))
  have hmem : o ∈ root.toList ++ c.types.objects := by
    rw [List.mem_append, Option.mem_toList]
    exact ho
  have hobject : nesting o ≤ ((root.toList ++ c.types.objects).map nesting).foldl max 0 :=
    le_foldl_max _ (Or.inr (List.mem_map_of_mem hmem))
  unfold depth
  omega

/-- The walk of an object type stops at the first problem of a scan. -/
theorem shape_ends (ha : c.types.Acyclic) {root : Option ObjectType} {o : ObjectType}
    (ho : root = some o ∨ o ∈ c.types.objects) :
    EndsIn (c.shape (c.depth root) o).outcome (c.types.firstProblem (c.types.scan o)) :=
  shape_endsIn ha (fun _ hf => nesting_le_depth ho hf)

end Converter

end GraphShape
