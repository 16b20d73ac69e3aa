import GraphShape.Proofs.Places
import GraphShape.Proofs.Scanning

/-!
# The schema generated for a type reference

A type reference has one schema, however much depth is allowed for it. The key fact is that each
kind of type fixes the form of its schema, so two walks of one type that both succeed agree.
-/

namespace GraphShape

namespace Converter

/-- A walk of a type reference gives a schema. -/
def Generates (c : Converter) (t : TypeRef) (s : Schema) : Prop :=
  ∃ depth, (c.fragment depth t).outcome = .ok s

variable {c : Converter} {t : TypeRef} {n : String} {b : Bool} {s s' : Schema}

theorem Generates.list (h : c.Generates (.list t b) s) :
    ∃ inner, c.Generates t inner ∧ s = Schema.array (Schema.item t.nonNull inner) := by
  obtain ⟨depth, h⟩ := h
  cases depth with
  | zero => cases h
  | succ depth =>
    rw [fragment] at h
    obtain ⟨inner, hinner, h⟩ := Walk.ok_of_bind h
    cases h
    exact ⟨inner, ⟨depth, hinner⟩, rfl⟩

theorem Generates.object {o : ObjectType} (hn : c.types.get? n = some (.object o))
    (h : c.Generates (.named n b) s) : s = c.mentioned o := by
  obtain ⟨depth, h⟩ := h
  cases depth with
  | zero => cases h
  | succ depth =>
    rw [fragment, hn] at h
    cases h
    rfl

theorem Generates.union {u : String} {members : List String}
    (hn : c.types.get? n = some (.union u members)) (h : c.Generates (.named n b) s) :
    ∃ choices, List.Forall₂ (fun m s => c.Generates (.named m false) s) members choices ∧
      s = Schema.oneOf choices := by
  obtain ⟨depth, h⟩ := h
  cases depth with
  | zero => cases h
  | succ depth =>
    rw [fragment, hn] at h
    obtain ⟨choices, hchoices, h⟩ := Walk.ok_of_bind h
    cases h
    exact ⟨choices, (Walk.each_ok hchoices).imp (fun _ _ hm => ⟨depth, hm⟩), rfl⟩

theorem Generates.scalar {u : String} (hn : c.types.get? n = some (.scalar u))
    (h : c.Generates (.named n b) s) : s = c.scalarSchema n := by
  obtain ⟨depth, h⟩ := h
  cases depth with
  | zero => cases h
  | succ depth =>
    rw [fragment, hn] at h
    simp only [scalar_eq, Except.ok.injEq] at h
    exact h.symm

theorem Generates.enum {e : String} {values : List String}
    (hn : c.types.get? n = some (.enum e values)) (h : c.Generates (.named n b) s) :
    s = Schema.enumeration e values := by
  obtain ⟨depth, h⟩ := h
  cases depth with
  | zero => cases h
  | succ depth =>
    rw [fragment, hn] at h
    cases h
    rfl

theorem Generates.unique (h : c.Generates t s) (h' : c.Generates t s') : s = s' := by
  obtain ⟨depth, h⟩ := h
  revert s'
  apply schema_induct c (P := fun t s => ∀ s', c.Generates t s' → s = s')
    ?list ?object ?union ?scalar ?enum h
  case list =>
    intro t b s hitem s' h'
    obtain ⟨inner, hinner, rfl⟩ := h'.list
    rw [hitem inner hinner]
  case object =>
    intro n b o hn s' h'
    exact (h'.object hn).symm
  case union =>
    intro n b u members choices hn hall s' h'
    obtain ⟨choices', hall', rfl⟩ := h'.union hn
    rw [forall₂_eq_right hall hall' (fun m s s' hs hs' => hs s' hs')]
  case scalar =>
    intro n b u hn s' h'
    exact (h'.scalar hn).symm
  case enum =>
    intro n b e values hn s' h'
    exact (h'.enum hn).symm

theorem Generates.iff_eq (h : c.Generates t s) : c.Generates t s' ↔ s' = s :=
  ⟨fun h' => h'.unique h, fun heq => heq ▸ h⟩

theorem Generates.custom (h : c.Generates (.named n b) s) (hn : c.IsCustom n) :
    s = c.customSchema n := by
  obtain ⟨⟨u, hu⟩, hprimitive⟩ := hn
  rw [h.scalar hu, scalarSchema, hprimitive]

theorem Generates.custom_or_built (h : c.Generates t s) :
    (∃ n b, t = .named n b ∧ c.IsCustom n) ∨
      ∃ ms : Members Json, s = .keywords ms ∧ "description" ∉ Members.names ms := by
  obtain ⟨depth, h⟩ := h
  apply schema_induct c (P := fun t s => (∃ n b, t = .named n b ∧ c.IsCustom n) ∨
    ∃ ms : Members Json, s = .keywords ms ∧ "description" ∉ Members.names ms)
    ?list ?object ?union ?scalar ?enum h
  case list => exact fun t b s _ => Or.inr ⟨_, rfl, by simp [Members.names]⟩
  case object =>
    intro n b o _
    right
    unfold mentioned
    split
    · exact ⟨_, rfl, by simp [Members.names]⟩
    · exact ⟨_, rfl, by simp [Members.names]⟩
  case union => exact fun n b u members choices _ _ => Or.inr ⟨_, rfl, by simp [Members.names]⟩
  case scalar =>
    intro n b u hn
    cases hprimitive : primitiveTypes.get? n with
    | none => exact Or.inl ⟨n, b, rfl, ⟨u, hn⟩, hprimitive⟩
    | some type =>
      rw [scalarSchema, hprimitive]
      exact Or.inr ⟨_, rfl, by simp [Members.names]⟩
  case enum => exact fun n b e values _ => Or.inr ⟨_, rfl, by simp [Members.names]⟩

theorem exists_generates (ht : c.types.Grounded t.innerName)
    (h : ∀ n ∈ c.types.met t.innerName, c.types.Supports n) : ∃ s, c.Generates t s := by
  have hends := fragment_endsIn (c := c) ht (Nat.le_refl _)
  obtain ⟨s, hs⟩ := hends.ok_iff.mpr (TypeMap.firstProblem_eq_none_iff.mpr h)
  exact ⟨s, _, hs⟩

end Converter

end GraphShape
