import GraphShape.Proofs.BreadthFirst
import GraphShape.Proofs.Conformity
import GraphShape.Proofs.Scanning

/-!
# What stops a conversion

A conversion succeeds unless a type that it walks mentions a name without a schema, and then the
first such name stops it. The key fact is that the types that were walked before had no problem, and
that they are all that come before in the order of discovery, or in the order of the map.
-/

namespace GraphShape

namespace Walk

variable {α β : Type}

theorem error_of_bind {x : Walk α} {f : α → Walk β} {stop : Stop}
    (h : (x >>= f).outcome = .error stop) :
    x.outcome = .error stop ∨ ∃ a, x.outcome = .ok a ∧ (f a).outcome = .error stop := by
  change (Walk.bind x f).outcome = .error stop at h
  unfold Walk.bind at h
  split at h
  · rename_i e he
    simp only [Except.error.injEq] at h
    exact Or.inl (h ▸ he)
  · rename_i a ha
    exact Or.inr ⟨a, ha, h⟩

theorem error_of_bind_pure {x : Walk α} {g : α → β} {stop : Stop}
    (h : (x >>= fun a => pure (g a)).outcome = .error stop) : x.outcome = .error stop := by
  rcases error_of_bind h with h | ⟨a, -, h⟩
  · exact h
  · cases h

theorem error_of_each {f : α → Walk β} {xs : List α} {stop : Stop}
    (h : (each f xs).outcome = .error stop) : ∃ x ∈ xs, (f x).outcome = .error stop := by
  induction xs with
  | nil => cases h
  | cons x rest ih =>
    rw [each_cons] at h
    rcases error_of_bind h with hx | ⟨b, -, h⟩
    · exact ⟨x, List.mem_cons_self, hx⟩
    · obtain ⟨y, hy, hstop⟩ := ih (error_of_bind_pure h)
      exact ⟨y, List.mem_cons_of_mem _ hy, hstop⟩

end Walk

namespace TypeMap

/-- What a scan of the object type of a name meets. -/
def scanFrom (types : TypeMap) (root : ObjectType) (n : String) : List String :=
  ((types.objectFrom root n).map types.scan).getD []

/-- Fields have types of the map other than input objects, and unions are of object types. -/
structure Validated (types : TypeMap) : Prop where
  fields : ∀ o ∈ types.objects, ∀ f ∈ o.fields, ∃ d, types.get? f.type.innerName = some d ∧
    ∀ i, d ≠ .input i
  unions : Converter.UnionsOfObjects types

variable {types : TypeMap} {root : ObjectType}

theorem scanFrom_eq {n : String} {o : ObjectType} (h : types.objectFrom root n = some o) :
    types.scanFrom root n = types.scan o := by
  rw [scanFrom, h]
  rfl

theorem mem_scanFrom_iff {n k : String} :
    k ∈ types.scanFrom root n ↔ ∃ o, types.objectFrom root n = some o ∧ k ∈ types.scan o := by
  rw [scanFrom]
  cases types.objectFrom root n <;> simp

theorem mem_scanned_iff (hl : types.Lawful) (ha : types.Acyclic) {k : String} :
    k ∈ (types.discoveryOrder root).flatMap (types.scanFrom root) ↔
      ∃ n o, types.Reaches root n ∧ types.objectFrom root n = some o ∧ types.Names o k := by
  simp only [List.mem_flatMap, mem_discoveryOrder_iff hl ha, mem_scanFrom_iff, mem_scan_iff ha,
    exists_and_left]

theorem problem?_ne_notAnObjectType (types : TypeMap) (n m : String) :
    types.problem? n ≠ some (.notAnObjectType m) := by
  unfold problem?
  split <;> simp

theorem problem_of_error {α : Type} {outcome : Except Stop α} {names : List String}
    (h : EndsIn outcome (types.firstProblem names)) {stop : Stop} (hstop : outcome = .error stop) :
    ∃ n ∈ names, ∃ p, types.problem? n = some p ∧ stop = .problem p := by
  obtain ⟨p, hp, rfl⟩ := (h.error_iff stop).mp hstop
  obtain ⟨n, hn, hproblem⟩ := List.exists_of_findSome?_eq_some hp
  exact ⟨n, hn, p, hproblem, rfl⟩

theorem Validated.problem? (hv : types.Validated) {o : ObjectType}
    (ho : o ∈ types.objects) {k : String} {p : ConversionProblem} (hk : types.Names o k)
    (hp : types.problem? k = some p) :
    ∃ i, types.get? k = some (.interface i) ∧ p = .unsupportedKind k "interface" := by
  obtain ⟨f, hf, hmet⟩ := hk
  have hget : ∃ d, types.get? k = some d ∧ ∀ i, d ≠ .input i := by
    rcases Relation.ReflTransGen.cases_tail hmet with heq | ⟨n, -, u, members, hn, hm⟩
    · exact heq ▸ hv.fields o ho f hf
    · obtain ⟨o', ho'⟩ := hv.unions n u members hn k hm
      exact ⟨_, ho', by simp⟩
  obtain ⟨d, hd, hinput⟩ := hget
  unfold TypeMap.problem? at hp
  rw [hd] at hp
  cases d with
  | interface i => exact ⟨i, hd, (Option.some.inj hp).symm⟩
  | input i => exact absurd rfl (hinput i)
  | object o => cases hp
  | union u members => cases hp
  | scalar u => cases hp
  | enum e values => cases hp

end TypeMap

theorem EndsIn.map {α β : Type} {outcome : Except Stop α} {problem : Option ConversionProblem}
    (f : α → β) (h : EndsIn outcome problem) : EndsIn (outcome.map f) problem := by
  cases problem with
  | none =>
    obtain ⟨a, ha⟩ := h
    exact ⟨f a, by rw [ha]; rfl⟩
  | some p => exact congrArg (Except.map f) h

namespace Converter

variable {c : Converter} {depth : Nat} {root : ObjectType}

/-! ## Walks of any depth -/

theorem fragment_error {t : TypeRef} {stop : Stop} (h : (c.fragment depth t).outcome = .error stop) :
    stop = .tooDeep ∨ ∃ n p, c.types.problem? n = some p ∧ stop = .problem p := by
  induction depth generalizing t with
  | zero =>
    rw [fragment] at h
    exact Or.inl (Except.error.inj h).symm
  | succ depth ih =>
    cases t with
    | list item b =>
      rw [fragment] at h
      exact ih (Walk.error_of_bind_pure h)
    | named n b =>
      rw [fragment] at h
      cases hn : c.types.get? n with
      | none =>
        rw [hn] at h
        exact Or.inr ⟨n, .unknownType n, by rw [TypeMap.problem?, hn], (Except.error.inj h).symm⟩
      | some d =>
        simp only [hn] at h
        cases d with
        | union u members =>
          obtain ⟨m, -, hm⟩ := Walk.error_of_each (Walk.error_of_bind_pure h)
          exact ih hm
        | scalar u =>
          simp only [scalar_eq] at h
          cases h
        | interface i =>
          exact Or.inr ⟨n, .unsupportedKind n "interface", by rw [TypeMap.problem?, hn],
            (Except.error.inj h).symm⟩
        | input i =>
          exact Or.inr ⟨n, .unsupportedKind n "input object", by rw [TypeMap.problem?, hn],
            (Except.error.inj h).symm⟩
        | object o => cases h
        | enum e values => cases h

theorem shape_ne_notAnObjectType (depth : Nat) (o : ObjectType) (n : String) :
    (c.shape depth o).outcome ≠ .error (.problem (.notAnObjectType n)) := by
  intro h
  rw [shape] at h
  obtain ⟨f, -, hf⟩ := Walk.error_of_each (Walk.error_of_bind_pure h)
  rw [property] at hf
  rcases fragment_error (Walk.error_of_bind_pure hf) with h | ⟨k, p, hp, h⟩
  · cases h
  · rw [← Stop.problem.inj h] at hp
    exact c.types.problem?_ne_notAnObjectType k n hp

/-! ## The whole map -/

theorem defineAll_endsIn {problem : ObjectType → Option ConversionProblem} (types : TypeMap)
    (ds : Members Schema)
    (h : ∀ o ∈ types.objects, EndsIn (c.shape depth o).outcome (problem o)) :
    EndsIn (c.defineAll depth types ds).outcome (types.objects.findSome? problem) := by
  induction types using TypeMap.objects_induct generalizing ds with
  | nil => exact ⟨ds, rfl⟩
  | other m rest hd ih =>
    rw [TypeMap.objects_cons_other rest hd] at h ⊢
    rw [defineAll_other c depth rest ds hd]
    exact ih ds h
  | object name o rest ih =>
    have ho := h o List.mem_cons_self
    have hrest := fun ds => ih ds (fun o ho => h o (List.mem_cons_of_mem _ ho))
    rw [TypeMap.objects_cons_object, List.findSome?_cons]
    cases hp : problem o with
    | none =>
      rw [hp] at ho
      obtain ⟨s, hs⟩ := ho
      rw [defineAll_object c depth name o rest ds hs]
      exact hrest _
    | some p =>
      rw [hp] at ho
      have herror : (c.shape depth o).outcome = .error (.problem p) := ho
      rw [defineAll]
      simp only [herror]
      rfl

theorem definitions_endsIn (ha : c.types.Acyclic) :
    EndsIn c.definitions.outcome (c.types.firstProblem (c.types.objects.flatMap c.types.scan)) := by
  rw [TypeMap.firstProblem, findSome?_flatMap]
  exact (defineAll_endsIn c.types [] (fun o ho => shape_ends ha (Or.inr ho))).map _

/-! ## A root and what it reaches -/

theorem shape_endsFrom (hl : c.types.Lawful) (ha : c.types.Acyclic) {n : String} {o : ObjectType}
    (h : c.types.objectFrom root n = some o) :
    EndsIn (c.shape (c.depth (some root)) o).outcome
      (c.types.firstProblem (c.types.scanFrom root n)) := by
  rw [TypeMap.scanFrom_eq h]
  apply shape_ends ha
  exact (TypeMap.mem_objects_of_objectFrom hl h).imp_left (fun heq => congrArg some heq.symm)

theorem Found.firstProblem_eq_none (hl : c.types.Lawful) (ha : c.types.Acyclic) {p : Progress}
    (h : c.Found (c.depth (some root)) root p) {n : String} (hn : n ∈ Members.names p.definitions) :
    c.types.firstProblem (c.types.scanFrom root n) = none := by
  obtain ⟨d, hd, rfl⟩ := List.mem_map.mp hn
  obtain ⟨o, ho, hwalk⟩ := h.shape_of_mem hd
  exact (shape_endsFrom hl ha ho).ok_iff.mp ⟨d.2, hwalk⟩

theorem convert_endsIn (hl : c.types.Lawful) (ha : c.types.Acyclic) (root : ObjectType) :
    EndsIn (c.convert root).outcome (c.types.firstProblem
      ((c.types.discoveryOrder root).flatMap (c.types.scanFrom root))) := by
  apply EndsIn.map
  have hseeded := found_seeded c (c.depth (some root)) root
  obtain ⟨q, hrun, hends⟩ := discover_ends hl hseeded (Nat.le_refl _)
  have hq := hseeded.run hl hrun
  rw [TypeMap.firstProblem, findSome?_flatMap]
  rcases hends with ⟨hdone, hok⟩ | ⟨r, stop, hnext, hwalk, herror⟩
  · rw [← names_definitions_eq_discoveryOrder hl ha hrun hdone, List.findSome?_eq_none_iff.mpr]
    · exact ⟨q, hok⟩
    · exact fun n hn => hq.firstProblem_eq_none hl ha hn
  · obtain ⟨hobject, -⟩ := hq.stored r (List.mem_of_getElem? hnext)
    obtain ⟨p, hp, rfl⟩ := ((shape_endsFrom hl ha hobject).error_iff stop).mp hwalk
    -- What comes before in the order has a definition, so its walk met no problem.
    obtain ⟨rest, hrest⟩ := hq.references_eq hnext
    obtain ⟨more, hmore⟩ := references_prefix_discoveryOrder hl ha hrun
    rw [List.findSome?_eq_some_iff.mpr]
    · exact herror
    · refine ⟨Members.names q.definitions, r.1, rest ++ more, ?_, ?_, ?_⟩
      · rw [← hmore, hrest, List.append_assoc, List.cons_append]
      · exact hp
      · exact fun n hn => hq.firstProblem_eq_none hl ha hn

/-- **Stopping.** A conversion stops at the first name without a schema, and nowhere else. -/
theorem conversions_stop_at_first_problem {c : Converter} (hl : c.types.Lawful)
    (ha : c.types.Acyclic) (root : ObjectType) :
    -- A root: the names in what it reaches decide, in the order of discovery.
    ((∃ doc, (c.convert root).outcome = .ok doc) ↔
      ∀ n o, c.types.Reaches root n → c.types.objectFrom root n = some o →
        ∀ k, c.types.Names o k → c.types.Supports k) ∧
    EndsIn (c.convert root).outcome (c.types.firstProblem
      ((c.types.discoveryOrder root).flatMap (c.types.scanFrom root))) ∧
    c.types.discoveryOrder root = dropRepeats (root.name ::
      (c.types.discoveryOrder root).flatMap (c.types.mentionsFrom root)) ∧
    (∀ n, n ∈ c.types.discoveryOrder root ↔ c.types.Reaches root n) ∧
    -- The whole map: the order is that of the map.
    EndsIn c.definitions.outcome (c.types.firstProblem (c.types.objects.flatMap c.types.scan)) ∧
    -- Walks never complain about a root, and in a validated map only about interfaces.
    (∀ depth o n, (c.shape depth o).outcome ≠ .error (.problem (.notAnObjectType n))) ∧
    (∀ n, (c.convert root).outcome ≠ .error (.problem (.notAnObjectType n)) ∧
      c.definitions.outcome ≠ .error (.problem (.notAnObjectType n))) ∧
    (c.types.Validated → ∀ stop,
      c.definitions.outcome = .error stop ∨
        (root ∈ c.types.objects ∧ (c.convert root).outcome = .error stop) →
      ∃ n i, c.types.get? n = some (.interface i) ∧
        stop = .problem (.unsupportedKind n "interface")) := by
  have hconvert := convert_endsIn hl ha root
  have hdefinitions := definitions_endsIn ha
  refine ⟨?_, hconvert, (TypeMap.discoveryOrder_eq hl ha root).symm,
    TypeMap.mem_discoveryOrder_iff hl ha, hdefinitions, shape_ne_notAnObjectType, ?_, ?_⟩
  · simp only [hconvert.ok_iff, TypeMap.firstProblem_eq_none_iff, TypeMap.mem_scanned_iff hl ha]
    constructor
    · intro h n o hn ho k hk
      exact h k ⟨n, o, hn, ho, hk⟩
    · rintro h k ⟨n, o, hn, ho, hk⟩
      exact h n o hn ho k hk
  · intro n
    refine ⟨?_, ?_⟩
    · intro h
      obtain ⟨k, -, p, hp, hstop⟩ := TypeMap.problem_of_error hconvert h
      exact c.types.problem?_ne_notAnObjectType k n (Stop.problem.inj hstop ▸ hp)
    · intro h
      obtain ⟨k, -, p, hp, hstop⟩ := TypeMap.problem_of_error hdefinitions h
      exact c.types.problem?_ne_notAnObjectType k n (Stop.problem.inj hstop ▸ hp)
  · rintro hv stop (h | ⟨hroot, h⟩)
    · obtain ⟨k, hk, p, hp, rfl⟩ := TypeMap.problem_of_error hdefinitions h
      obtain ⟨o, ho, hk⟩ := List.mem_flatMap.mp hk
      obtain ⟨i, hi, rfl⟩ := hv.problem? ho ((TypeMap.mem_scan_iff ha).mp hk) hp
      exact ⟨k, i, hi, rfl⟩
    · obtain ⟨k, hk, p, hp, rfl⟩ := TypeMap.problem_of_error hconvert h
      obtain ⟨n, o, -, ho, hk⟩ := (TypeMap.mem_scanned_iff hl ha).mp hk
      have hmem : o ∈ c.types.objects := by
        rcases TypeMap.mem_objects_of_objectFrom hl ho with rfl | ho
        · exact hroot
        · exact ho
      obtain ⟨i, hi, rfl⟩ := hv.problem? hmem hk hp
      exact ⟨k, i, hi, rfl⟩

def shelfType : ObjectType := ⟨"Shelf", none, [⟨"items", .list (.named "Item" false) true, none⟩]⟩

def shelfTypes : TypeMap := TypeMap.ofDefs
  [.object shelfType,
    .object ⟨"Box", none, [⟨"note", .named "Memo" false, none⟩]⟩,
    .union "Item" ["Book", "Box"],
    .object ⟨"Book", none, [⟨"authors", .list (.named "Person" true) false, none⟩]⟩,
    .interface "Person"]

theorem conversions_stop_at_first_problem_shelves : shelfTypes.Lawful ∧ shelfTypes.Acyclic ∧
    shelfTypes.discoveryOrder shelfType = ["Shelf", "Book", "Box"] ∧
    ((plain shelfTypes Policy.never).convert shelfType).outcome =
      .error (.problem (.unsupportedKind "Person" "interface")) ∧
    (plain shelfTypes Policy.never).definitions.outcome =
      .error (.problem (.unknownType "Memo")) := by
  have hl : shelfTypes.Lawful := TypeMap.ofDefs_lawful _
  have ha : shelfTypes.Acyclic := (unionsOfObjects_of_all (by decide)).acyclic
  obtain ⟨-, hconvert, -, -, hdefinitions, -⟩ := conversions_stop_at_first_problem
    (c := plain shelfTypes Policy.never) hl ha shelfType
  refine ⟨hl, ha, by decide, ?_, ?_⟩
  · exact (hconvert.error_iff _).mpr ⟨.unsupportedKind "Person" "interface", by decide, rfl⟩
  · exact (hdefinitions.error_iff _).mpr ⟨.unknownType "Memo", by decide, rfl⟩

end Converter

end GraphShape
