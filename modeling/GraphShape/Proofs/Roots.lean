import GraphShape.Proofs.Locality
import GraphShape.Proofs.Stopping

/-!
# Listed types are roots

The list of object types and the check of a root are separate, and they agree: a listed name passes
the check, and so does only an object type. The key fact for what happens after the check is that a
walk stops at a name that has no schema. The name of an object type has one, so no mention of the
root, from however far away, stops the conversion.
-/

namespace GraphShape

namespace TypeMap

variable {types : TypeMap} {n : String}

theorem objectNames_sublist (types : TypeMap) :
    types.objectNames.Sublist (Members.names types) := by
  induction types with
  | nil => exact List.Sublist.refl _
  | cons m rest ih =>
    obtain ⟨k, d⟩ := m
    rw [objectNames, List.filterMap_cons]
    split
    · exact ih.cons k
    · rename_i listed h
      -- Whatever is listed for a member is the member's name.
      obtain rfl : k = listed := by
        split at h
        · split at h
          · cases h
          · exact Option.some.inj h
        · cases h
      exact ih.cons_cons k

theorem Lawful.nodup_objectNames (hl : types.Lawful) : types.objectNames.Nodup :=
  (objectNames_sublist types).nodup hl.nodup

theorem mem_objectNames_iff (hl : types.Lawful) :
    n ∈ types.objectNames ↔
      (∃ o, types.get? n = some (.object o)) ∧ isIntrospective n = false := by
  simp only [objectNames, List.mem_filterMap, Members.get?_eq_some_iff hl.nodup]
  constructor
  · rintro ⟨⟨k, d⟩, hm, h⟩
    cases d with
    | object o =>
      cases hk : isIntrospective k with
      | true => simp [hk] at h
      | false =>
        simp only [hk, Bool.false_eq_true, if_false, Option.some.injEq] at h
        subst h
        exact ⟨⟨o, hm⟩, hk⟩
    | _ => cases h
  · rintro ⟨⟨o, hm⟩, hn⟩
    exact ⟨(n, .object o), hm, by simp [hn]⟩

theorem hasObject_iff : types.hasObject n = true ↔ ∃ o, types.get? n = some (.object o) := by
  simp only [hasObject, Option.isSome_iff_exists, Option.bind_eq_some_iff]
  constructor
  · rintro ⟨o, d, hd, ho⟩
    exact ⟨o, eq_object_of_object? ho ▸ hd⟩
  · rintro ⟨o, ho⟩
    exact ⟨o, _, ho, rfl⟩

theorem count_objectNames (hl : types.Lawful) :
    types.objectNames.count n =
      if types.hasObject n = true ∧ isIntrospective n = false then 1 else 0 := by
  split
  · rename_i h
    apply List.count_eq_one_of_mem hl.nodup_objectNames
    exact (mem_objectNames_iff hl).mpr ⟨hasObject_iff.mp h.1, h.2⟩
  · rename_i h
    apply List.count_eq_zero_of_not_mem
    rintro hn
    obtain ⟨ho, hi⟩ := (mem_objectNames_iff hl).mp hn
    exact h ⟨hasObject_iff.mpr ho, hi⟩

theorem problem?_object {o : ObjectType} (h : types.get? n = some (.object o)) :
    types.problem? n = none := problem?_of_supports (Or.inl ⟨o, h⟩)

theorem problem?_subject {p : ConversionProblem} (h : types.problem? n = some p) :
    p = .unknownType n ∨ ∃ kind, p = .unsupportedKind n kind := by
  unfold problem? at h
  split at h
  · exact Or.inl (Option.some.inj h).symm
  · exact Or.inr ⟨_, (Option.some.inj h).symm⟩
  · exact Or.inr ⟨_, (Option.some.inj h).symm⟩
  · cases h

end TypeMap

namespace Converter

variable {c : Converter} {n : String}

theorem convertNamed_stops_elsewhere (hl : c.types.Lawful) (ha : c.types.Acyclic) {o : ObjectType}
    (ho : c.types.get? n = some (.object o)) (stop : Stop)
    (h : (c.convertNamed n).outcome = .error stop) :
    ∃ k p, k ≠ n ∧ c.types.NamedFrom n k ∧ c.types.problem? k = some p ∧ stop = .problem p := by
  rw [convertNamed_eq ho] at h
  obtain ⟨k, hk, p, hp, rfl⟩ := TypeMap.problem_of_error (convert_endsIn hl ha o) h
  obtain ⟨m, walked, hreaches, hwalked, hnames⟩ := (TypeMap.mem_scanned_iff hl ha).mp hk
  refine ⟨k, p, ?_, ⟨walked, ⟨o, m, ho, hreaches, hwalked⟩, hnames⟩, hp, rfl⟩
  rintro rfl
  rw [TypeMap.problem?_object ho] at hp
  cases hp

/-- **Listed types are roots.** Only another name stops the conversion of a listed one. -/
theorem listed_types_are_roots {c : Converter} (hl : c.types.Lawful) (ha : c.types.Acyclic)
    (n : String) :
    c.types.objectNames.count n =
      (if c.types.hasObject n = true ∧ TypeMap.isIntrospective n = false then 1 else 0) ∧
    -- A listed name passes the check, and what stops it then is another name.
    (n ∈ c.types.objectNames →
      (∀ m, (c.convertNamed n).outcome ≠ .error (.problem (.notAnObjectType m))) ∧
      (c.convertNamed n).outcome ≠ .error (.problem (.unknownType n)) ∧
      (∀ kind, (c.convertNamed n).outcome ≠ .error (.problem (.unsupportedKind n kind))) ∧
      ∀ stop, (c.convertNamed n).outcome = .error stop →
        ∃ k p, k ≠ n ∧ c.types.NamedFrom n k ∧ c.types.problem? k = some p ∧
          stop = .problem p) ∧
    ((∃ doc, (c.convertNamed n).outcome = .ok doc) →
      n ∈ c.types.objectNames ∨ TypeMap.isIntrospective n = true) ∧
    -- What is no object type fails the check before anything is walked.
    ((∀ o, c.types.get? n ≠ some (.object o)) →
      (c.convertNamed n).events = [] ∧
      ((c.convertNamed n).outcome = .error (.problem (.unknownType n)) ↔
        n ∉ Members.names c.types) ∧
      ((c.convertNamed n).outcome = .error (.problem (.notAnObjectType n)) ↔
        n ∈ Members.names c.types)) := by
  refine ⟨TypeMap.count_objectNames hl, ?_, ?_, ?_⟩
  · intro hlisted
    obtain ⟨⟨o, ho⟩, -⟩ := (TypeMap.mem_objectNames_iff hl).mp hlisted
    have helsewhere := convertNamed_stops_elsewhere hl ha ho
    refine ⟨?_, ?_, ?_, helsewhere⟩
    · intro m h
      obtain ⟨k, p, -, -, hp, hstop⟩ := helsewhere _ h
      exact c.types.problem?_ne_notAnObjectType k m (Stop.problem.inj hstop ▸ hp)
    · intro h
      obtain ⟨k, p, hne, -, hp, hstop⟩ := helsewhere _ h
      obtain rfl := Stop.problem.inj hstop
      rcases TypeMap.problem?_subject hp with heq | ⟨kind, heq⟩
      · exact hne (ConversionProblem.unknownType.inj heq).symm
      · cases heq
    · intro kind h
      obtain ⟨k, p, hne, -, hp, hstop⟩ := helsewhere _ h
      obtain rfl := Stop.problem.inj hstop
      rcases TypeMap.problem?_subject hp with heq | ⟨kind, heq⟩
      · cases heq
      · exact hne (ConversionProblem.unsupportedKind.inj heq).1.symm
  · rintro ⟨doc, hdoc⟩
    obtain ⟨o, ho, -⟩ := convertNamed_ok hdoc
    cases hn : TypeMap.isIntrospective n with
    | true => exact Or.inr rfl
    | false => exact Or.inl ((TypeMap.mem_objectNames_iff hl).mpr ⟨⟨o, ho⟩, hn⟩)
  · intro hother
    rw [convertNamed]
    cases hn : c.types.get? n with
    | none =>
      have hnew := (Members.get?_eq_none_iff c.types n).mp hn
      simp [hnew]
    | some d =>
      have hmem := Members.mem_names_of_get? hn
      cases d with
      | object o => exact absurd hn (hother o)
      | _ => simp [hmem]

theorem listed_types_are_roots_shelves : shelfTypes.Lawful ∧ shelfTypes.Acyclic ∧
    "Shelf" ∈ shelfTypes.objectNames ∧
    (∃ k p, k ≠ "Shelf" ∧ shelfTypes.NamedFrom "Shelf" k ∧ shelfTypes.problem? k = some p ∧
      ((plain shelfTypes Policy.never).convertNamed "Shelf").outcome = .error (.problem p)) ∧
    (∀ o, shelfTypes.get? "Item" ≠ some (.object o)) ∧
    ((plain shelfTypes Policy.never).convertNamed "Item").outcome =
      .error (.problem (.notAnObjectType "Item")) ∧
    ("Page" ∈ bookTypes.objectNames ∨ TypeMap.isIntrospective "Page" = true) := by
  have hl : shelfTypes.Lawful := TypeMap.ofDefs_lawful _
  have ha : shelfTypes.Acyclic := (unionsOfObjects_of_all (by decide)).acyclic
  have hlisted : "Shelf" ∈ shelfTypes.objectNames := by decide +kernel
  have hitem : ∀ o, shelfTypes.get? "Item" ≠ some (.object o) := by
    intro o h
    cases h
  have hstop : ((plain shelfTypes Policy.never).convertNamed "Shelf").outcome =
      .error (.problem (.unsupportedKind "Person" "interface")) :=
    ((convert_endsIn hl ha shelfType).error_iff _).mpr
      ⟨.unsupportedKind "Person" "interface", by decide, rfl⟩
  obtain ⟨-, hroot, -, -⟩ :=
    listed_types_are_roots (c := plain shelfTypes Policy.never) hl ha "Shelf"
  obtain ⟨k, p, hne, hnamed, hp, heq⟩ := (hroot hlisted).2.2.2 _ hstop
  obtain ⟨-, -, -, hother⟩ :=
    listed_types_are_roots (c := plain shelfTypes Policy.never) hl ha "Item"
  obtain ⟨-, -, hconverted, -⟩ := listed_types_are_roots (c := plain bookTypes Policy.never)
    (TypeMap.ofDefs_lawful _) (unionsOfObjects_of_all (by decide)).acyclic "Page"
  exact ⟨hl, ha, hlisted, ⟨k, p, hne, hnamed, hp, heq ▸ hstop⟩, hitem,
    (hother hitem).2.2.mpr (by decide), hconverted (exists_ok (by decide))⟩

end Converter

end GraphShape
