import GraphShape.Proofs.Threading

/-!
# What walks add to the references

A walk never reads the references, and adds the object types that it mentions for the first time.
The key fact is that a walk looks at the names of a scan until one has no schema, whatever was
recorded before, so what it mentions is read off the scan. Since references stay where they are, the
definitions of a root are always those of the first of them.
-/

namespace GraphShape

/-- The first of each name, in order. -/
def firstMentions (os : List ObjectType) : List ObjectType :=
  os.eraseDupsBy (fun a b => a.name == b.name)

theorem firstMentions_cons (o : ObjectType) (os : List ObjectType) :
    firstMentions (o :: os) = o :: firstMentions (os.filter (fun m => m.name ≠ o.name)) := by
  simp only [firstMentions, List.eraseDupsBy_cons, beq_eq_false_iff_ne]

namespace References

/-- No name has two references, and each stands under the name of its object type. -/
structure Keyed (references : References) : Prop where
  nodup : (Members.names references).Nodup
  keyed : ∀ r ∈ references, r.2.name = r.1

variable {references : References}

theorem keyed_seeded (root : ObjectType) : (seeded root).Keyed := by
  refine ⟨List.nodup_singleton _, ?_⟩
  intro r hr
  rw [List.mem_singleton.mp hr]

theorem Keyed.record (h : references.Keyed) (os : List ObjectType) :
    (references.record os).Keyed := by
  refine ⟨?_, ?_⟩
  · rw [names_record]
    exact nodup_foldl_addNew _ h.nodup
  · intro r hr
    rcases mem_record hr with hr | ⟨-, hname, -⟩
    · exact h.keyed r hr
    · exact hname

theorem record_eq (references : References) (os : List ObjectType) :
    references.record os = references ++
      (firstMentions (os.filter (fun o => o.name ∉ Members.names references))).map
        (fun o => (o.name, o)) := by
  induction os generalizing references with
  | nil => exact (List.append_nil _).symm
  | cons o rest ih =>
    rw [record_cons]
    by_cases ho : o.name ∈ Members.names references
    · rw [Members.putNew_of_mem _ ho, ih, List.filter_cons_of_neg (by simpa using ho)]
    · have hnames : Members.names (references ++ [(o.name, o)]) =
          Members.names references ++ [o.name] := Members.names_append _ _
      rw [Members.putNew_of_not_mem _ ho, ih, List.filter_cons_of_pos (by simpa using ho),
        firstMentions_cons, List.map_cons, List.append_assoc, List.singleton_append,
        List.filter_filter, hnames]
      congr 4
      apply List.filter_congr
      intro m _
      simp [not_or, and_comm]

end References

namespace TypeMap

variable {types : TypeMap} {n : String}

/-! ## What a scan mentions -/

/-- The object types among names, up to the first name without a schema. -/
def recorded (types : TypeMap) (names : List String) : List ObjectType :=
  (names.takeWhile (fun n => types.problem? n = none)).filterMap
    (fun n => (types.get? n).bind TypeDef.object?)

theorem recorded_cons_of_problem {p : ConversionProblem} (h : types.problem? n = some p)
    (names : List String) : types.recorded (n :: names) = [] := by
  simp [recorded, h]

theorem recorded_cons (h : types.problem? n = none) (names : List String) :
    types.recorded (n :: names) =
      ((types.get? n).bind TypeDef.object?).toList ++ types.recorded names := by
  simp only [recorded, List.takeWhile_cons, h, decide_true, if_true, List.filterMap_cons]
  cases (types.get? n).bind TypeDef.object? <;> rfl

theorem recorded_append (names more : List String) :
    types.recorded (names ++ more) =
      types.recorded names ++
        if types.firstProblem names = none then types.recorded more else [] := by
  induction names with
  | nil => rfl
  | cons n rest ih =>
    rw [firstProblem, List.findSome?_cons]
    cases hn : types.problem? n with
    | none =>
      rw [List.cons_append, recorded_cons hn, recorded_cons hn, ih, List.append_assoc]
      rfl
    | some p =>
      rw [List.cons_append, recorded_cons_of_problem hn, recorded_cons_of_problem hn]
      rfl

end TypeMap

/-- A walk looks at names in order, until one has no schema. -/
structure Walk.Scans {α : Type} (types : TypeMap) (names : List String) (w : Walk α) : Prop where
  mentions : w.mentions = types.recorded names
  ends : EndsIn w.outcome (types.firstProblem names)

namespace Walk.Scans

variable {α β : Type} {types : TypeMap} {names : List String}

theorem fail {n : String} {p : ConversionProblem} (h : types.problem? n = some p)
    (names : List String) : Scans types (n :: names) (Walk.fail p : Walk α) := by
  refine ⟨(TypeMap.recorded_cons_of_problem h names).symm, ?_⟩
  rw [TypeMap.firstProblem, List.findSome?_cons, h]
  rfl

theorem single {n : String} (h : types.problem? n = none) (events : List Event) (a : α) :
    Scans types [n] ⟨((types.get? n).bind TypeDef.object?).toList, events, .ok a⟩ := by
  refine ⟨?_, ?_⟩
  · rw [TypeMap.recorded_cons h]
    exact (List.append_nil _).symm
  · rw [TypeMap.firstProblem, List.findSome?_singleton, h]
    exact ⟨a, rfl⟩

theorem bind_pure {x : Walk α} (g : α → β) (h : Scans types names x) :
    Scans types names (x >>= fun a => pure (g a)) := by
  refine ⟨?_, h.ends.bind_pure g⟩
  rw [← h.mentions]
  show (Walk.bind x _).mentions = _
  unfold Walk.bind
  split
  · rfl
  · exact List.append_nil _

theorem bind {x : Walk α} {f : α → Walk β} {more : List String} (h : Scans types names x)
    (hf : ∀ a, x.outcome = .ok a → Scans types more (f a)) :
    Scans types (names ++ more) (x >>= f) := by
  obtain ⟨hmentions, hends⟩ := h
  have hproblem : types.firstProblem (names ++ more) =
      (types.firstProblem names).or (types.firstProblem more) := List.findSome?_append
  cases hp : types.firstProblem names with
  | none =>
    rw [hp] at hends
    obtain ⟨a, ha⟩ := hends
    obtain ⟨hmore, hmoreEnds⟩ := hf a ha
    rw [Walk.bind_of_ok f ha]
    refine ⟨?_, ?_⟩
    · rw [TypeMap.recorded_append, if_pos hp, hmentions, hmore]
    · rw [hproblem, hp]
      exact hmoreEnds
  | some p =>
    rw [hp] at hends
    have hbind : x >>= f = ⟨x.mentions, x.events, .error (.problem p)⟩ := by
      show Walk.bind x f = _
      rw [Walk.bind, show x.outcome = .error (.problem p) from hends]
    rw [hbind]
    refine ⟨?_, ?_⟩
    · rw [TypeMap.recorded_append, if_neg (by simp [hp]), List.append_nil, hmentions]
    · rw [hproblem, hp]
      rfl

theorem each {f : α → Walk β} {scan : α → List String} {xs : List α}
    (hr : Returns (Walk.each f xs).outcome)
    (h : ∀ x ∈ xs, Returns (f x).outcome → Scans types (scan x) (f x)) :
    Scans types (xs.flatMap scan) (Walk.each f xs) := by
  induction xs with
  | nil => exact ⟨rfl, [], rfl⟩
  | cons x rest ih =>
    rw [each_cons] at hr ⊢
    rw [List.flatMap_cons]
    refine (h x List.mem_cons_self (returns_of_bind hr)).bind ?_
    intro b hb
    apply Scans.bind_pure
    apply ih ?_ (fun y hy => h y (List.mem_cons_of_mem _ hy))
    rw [Walk.bind_of_ok _ hb] at hr
    exact returns_of_bind hr

end Walk.Scans

namespace Converter

variable {c : Converter} {depth : Nat}

/-! ## Walks of references, nodes and object types -/

theorem fragment_scansWithin {n : String} {b : Bool}
    (h : Returns (c.fragment depth (.named n b)).outcome) :
    (c.fragment depth (.named n b)).Scans c.types (c.types.metWithin depth n) := by
  induction depth generalizing n b with
  | zero => exact absurd h (not_returns_zero c _)
  | succ depth ih =>
    rw [TypeMap.metWithin]
    cases hn : c.types.get? n with
    | none =>
      rw [fragment, hn]
      exact Walk.Scans.fail (by rw [TypeMap.problem?, hn]) []
    | some d =>
      have hsingle (hp : c.types.problem? n = none) (events : List Event) (s : Schema) :=
        Walk.Scans.single hp events s
      simp only [hn, TypeMap.problem?] at hsingle
      cases d with
      | union u members =>
        have hp : c.types.problem? n = none := by rw [TypeMap.problem?, hn]
        rw [fragment_union hn] at h ⊢
        have hmembers := (Walk.Scans.each (Walk.returns_of_bind h) (fun m _ hm => ih hm)).bind_pure
          Schema.oneOf
        refine ⟨?_, ?_⟩
        · rw [TypeMap.recorded_cons hp, hn, hmembers.mentions]
          rfl
        · rw [TypeMap.firstProblem, List.findSome?_cons, hp]
          exact hmembers.ends
      | object o =>
        rw [fragment, hn]
        exact hsingle rfl [] (c.mentioned o)
      | scalar u =>
        rw [fragment, hn]
        simp only [scalar_eq]
        exact hsingle rfl _ _
      | enum e values =>
        rw [fragment, hn]
        exact hsingle rfl [] (Schema.enumeration e values)
      | interface i =>
        rw [fragment, hn]
        exact Walk.Scans.fail (by rw [TypeMap.problem?, hn]) []
      | input i =>
        rw [fragment, hn]
        exact Walk.Scans.fail (by rw [TypeMap.problem?, hn]) []

theorem fragment_scans {t : TypeRef} (h : Returns (c.fragment depth t).outcome) :
    (c.fragment depth t).Scans c.types (c.types.met t.innerName) := by
  induction t generalizing depth with
  | named n b =>
    -- With room for all names of the map the walk is the same, and then it looks at what is met.
    have hsettled : c.fragment (c.types.length + 1) (.named n b) = c.fragment depth (.named n b) :=
      fragment_settled h (by simp [TypeRef.nesting])
    rw [← hsettled] at h ⊢
    exact fragment_scansWithin h
  | list item b ih =>
    cases depth with
    | zero => exact absurd h (not_returns_zero c _)
    | succ depth =>
      rw [fragment_list] at h ⊢
      exact (ih (Walk.returns_of_bind h)).bind_pure _

theorem shape_scans {o : ObjectType} (h : Returns (c.shape depth o).outcome) :
    (c.shape depth o).Scans c.types (c.types.scan o) := by
  rw [shape] at h ⊢
  apply Walk.Scans.bind_pure
  apply Walk.Scans.each (Walk.returns_of_bind h)
  intro f _ hf
  rw [property] at hf ⊢
  exact (fragment_scans (Walk.returns_of_bind hf)).bind_pure _

/-- What a walk can start at. -/
inductive Start where
  | type (t : TypeRef)
  | node (node : TypeNode)
  | object (o : ObjectType)

def walk (c : Converter) (depth : Nat) : Start → Walk Schema
  | .type t => c.fragment depth t
  | .node node => c.node depth node
  | .object o => c.shape depth o

def walkIn (c : Converter) (depth : Nat) : Start → Threaded Schema
  | .type t => c.typeIn depth t
  | .node node => c.nodeIn depth node
  | .object o => c.objectIn depth o

theorem keep_walk (c : Converter) (depth : Nat) (start : Start) :
    (c.walk depth start).keep = c.walkIn depth start := by
  cases start with
  | type t => exact c.keep_fragment depth t
  | node node => exact c.keep_node depth node
  | object o => exact c.keep_shape depth o

theorem run_walkIn (c : Converter) (depth : Nat) (start : Start) (ledger : Ledger) :
    (c.walkIn depth start).run ledger = ((c.walk depth start).outcome,
      ⟨ledger.references.record (c.walk depth start).mentions,
        ledger.events ++ (c.walk depth start).events⟩) := by
  rw [← keep_walk, Walk.run_keep]

/-- The object types that are mentioned there, with all their repeats: lists are looked through and
unions are followed member by member, up to the first name without a schema. -/
def mentionsAt (types : TypeMap) : Start → List ObjectType
  | .type t => types.recorded (types.met t.innerName)
  | .node (.object o) => [o]
  | .node (.union members) => types.recorded (members.flatMap types.met)
  | .node (.scalar _) => []
  | .node (.enum _ _) => []
  | .node (.list item) => types.recorded (types.met item.innerName)
  | .object o => types.recorded (types.scan o)

theorem walk_mentions {start : Start} (h : Returns (c.walk depth start).outcome) :
    (c.walk depth start).mentions = mentionsAt c.types start := by
  cases start with
  | type t => exact (fragment_scans h).mentions
  | object o => exact (shape_scans h).mentions
  | node node =>
    rw [walk] at h ⊢
    cases node with
    | object o => rfl
    | union members =>
      rw [Converter.node] at h ⊢
      have hmembers := Walk.Scans.each (Walk.returns_of_bind h) (fun m _ hm => fragment_scans hm)
      exact (hmembers.bind_pure Schema.oneOf).mentions
    | scalar name => exact congrArg Walk.mentions (c.scalar_eq name)
    | enum name values => rfl
    | list item =>
      rw [Converter.node] at h ⊢
      exact ((fragment_scans (Walk.returns_of_bind h)).bind_pure _).mentions

/-! ## The loop -/

/-- One turn of the loop of a conversion. -/
def Turns (c : Converter) (depth : Nat) (p q : Progress) : Prop :=
  ∃ events later, (c.turn depth p.definitions).run ⟨p.references, events⟩ =
    (.ok (some q.definitions), ⟨q.references, later⟩)

/-- The definitions are those of the first references. -/
structure Aligned (p : Progress) : Prop where
  keyed : p.references.Keyed
  defined : Members.names p.definitions =
    (Members.names p.references).take p.definitions.length

variable {p q : Progress} {n : String} {o : ObjectType}

theorem aligned_seeded (root : ObjectType) : Aligned ⟨References.seeded root, []⟩ :=
  ⟨References.keyed_seeded root, rfl⟩

theorem Turns.advances (h : c.Turns depth p q) : c.Advances depth p q := by
  obtain ⟨events, later, h⟩ := h
  cases hnext : p.references[p.definitions.length]? with
  | none =>
    rw [run_turn_of_none hnext] at h
    cases h
  | some r =>
    rw [run_turn_of_some _ _ hnext] at h
    cases hwalk : (c.shape depth r.2).outcome with
    | error s =>
      rw [hwalk] at h
      cases h
    | ok s =>
      rw [hwalk] at h
      obtain ⟨references, definitions⟩ := q
      simp only [Except.map, Prod.mk.injEq, Except.ok.injEq, Option.some.injEq,
        Ledger.mk.injEq] at h
      obtain ⟨rfl, rfl, -⟩ := h
      exact ⟨r.1, r.2, s, hnext, hwalk, rfl⟩

theorem Aligned.next (h : Aligned p) (hnext : p.references[p.definitions.length]? = some (n, o)) :
    o.name = n ∧ n ∉ Members.names p.definitions := by
  refine ⟨h.keyed.keyed _ (List.mem_of_getElem? hnext), ?_⟩
  have hname : (Members.names p.references)[p.definitions.length]? = some n := by
    rw [Members.names, List.getElem?_map, hnext]
    rfl
  have hnodup := h.keyed.nodup
  obtain ⟨hlt, hget⟩ := List.getElem?_eq_some_iff.mp hname
  rw [← List.take_append_drop p.definitions.length (Members.names p.references),
    List.drop_eq_getElem_cons hlt, hget, List.nodup_append] at hnodup
  rw [h.defined]
  exact fun hmem => hnodup.2.2 n hmem n List.mem_cons_self rfl

theorem Aligned.put (h : Aligned p) (hnext : p.references[p.definitions.length]? = some (n, o))
    (s : Schema) : p.definitions.put o.name s = p.definitions ++ [(n, s)] := by
  obtain ⟨rfl, hnew⟩ := h.next hnext
  exact Members.put_of_not_mem s hnew

/-- A round leaves the references where they are, and the next one gets the definition. -/
theorem Aligned.advances (h : Aligned p) (hstep : c.Advances depth p q) : Aligned q := by
  obtain ⟨n, o, s, hnext, -, rfl⟩ := hstep
  refine ⟨h.keyed.record _, ?_⟩
  have hlt : p.definitions.length < (Members.names p.references).length := by
    rw [Members.names, List.length_map]
    exact (List.getElem?_eq_some_iff.mp hnext).1
  have hname : (Members.names p.references)[p.definitions.length]? = some n := by
    rw [Members.names, List.getElem?_map, hnext]
    rfl
  obtain ⟨more, hmore⟩ := References.prefix_record p.references (c.shape depth o).mentions
  simp only [h.put hnext, ← hmore, Members.names_append, List.length_append, List.length_singleton]
  rw [List.take_append_of_le_length hlt, List.take_add_one, hname, h.defined]
  rfl

theorem Aligned.run (h : Aligned p) (hrun : Relation.ReflTransGen (c.Turns depth) p q) :
    Aligned q := by
  induction hrun with
  | refl => exact h
  | tail _ hstep ih => exact ih.advances hstep.advances

/-- **Append-only references.** Walks read no references, and append their first mentions. -/
theorem walks_append_first_mentions (c : Converter) (depth : Nat) :
    -- The result is the same for all references.
    (∀ start references others events,
      ((c.walkIn depth start).run ⟨references, events⟩).1 =
        ((c.walkIn depth start).run ⟨others, events⟩).1 ∧
      ((c.walkIn depth start).run ⟨references, events⟩).2.events =
        ((c.walkIn depth start).run ⟨others, events⟩).2.events) ∧
    -- References stay, and a walk that returns adds the first mentions of new names.
    (∀ start references events outcome later,
      (c.walkIn depth start).run ⟨references, events⟩ = (outcome, later) →
      References.Keyed references →
      later.references.Keyed ∧
      (∀ r ∈ references, later.references.get? r.1 = some r.2) ∧
      (Returns outcome → later.references = references ++
        (firstMentions ((mentionsAt c.types start).filter
          (fun o => o.name ∉ Members.names references))).map (fun o => (o.name, o)))) ∧
    -- At every turn the definitions are those of the first references.
    ∀ root, c.convertIn root = c.convert root ∧
      ∀ p, Relation.ReflTransGen (c.Turns depth) ⟨References.seeded root, []⟩ p →
        Members.names p.definitions =
          (Members.names p.references).take p.definitions.length ∧
        ∀ n o, p.references[p.definitions.length]? = some (n, o) →
          n ∉ Members.names p.definitions ∧
          ∀ q, c.Turns depth p q → ∃ s, q.definitions = p.definitions ++ [(n, s)] := by
  refine ⟨?_, ?_, ?_⟩
  · intro start references others events
    simp only [run_walkIn, and_self]
  · intro start references events outcome later hrun hkeyed
    rw [run_walkIn, Prod.mk.injEq] at hrun
    obtain ⟨rfl, rfl⟩ := hrun
    have hlater := hkeyed.record (c.walk depth start).mentions
    refine ⟨hlater, ?_, ?_⟩
    · intro r hr
      apply Members.get?_of_mem hlater.nodup
      exact (References.prefix_record references _).subset hr
    · intro hreturns
      simp only [walk_mentions hreturns, References.record_eq]
  · intro root
    refine ⟨c.convertIn_eq root, ?_⟩
    intro p hrun
    have hp := (aligned_seeded root).run hrun
    refine ⟨hp.defined, ?_⟩
    intro n o hnext
    refine ⟨(hp.next hnext).2, ?_⟩
    intro q hturn
    obtain ⟨n', o', s, hnext', -, rfl⟩ := hturn.advances
    obtain ⟨rfl, rfl⟩ := Prod.mk.inj (Option.some.inj (hnext.symm.trans hnext'))
    exact ⟨s, hp.put hnext s⟩

/-- The parts of a book in lists. -/
def partsStart : Start := .type (.list (.named "Part" false) true)

theorem walks_append_first_mentions_parts :
    References.Keyed (References.seeded pageType) ∧
    (∃ schema later, (bookConverter.walkIn 9 partsStart).run ⟨References.seeded pageType, []⟩ =
        (.ok schema, later) ∧
      later.references = [("Page", pageType), ("Cover", coverType)]) ∧
    ∃ q, bookConverter.Turns 9 ⟨References.seeded pageType, []⟩ q ∧
      ∃ s, q.definitions = [("Page", s)] := by
  obtain ⟨-, hwalks, hloop⟩ := walks_append_first_mentions bookConverter 9
  have hkeyed := References.keyed_seeded pageType
  refine ⟨hkeyed, ?_, ?_⟩
  · obtain ⟨schema, hschema⟩ :=
      exists_ok (x := (bookConverter.walk 9 partsStart).outcome) (by decide)
    have hrun := bookConverter.run_walkIn 9 partsStart ⟨References.seeded pageType, []⟩
    rw [hschema] at hrun
    obtain ⟨-, -, hlater⟩ := hwalks _ _ _ _ _ hrun hkeyed
    refine ⟨schema, _, hrun, ?_⟩
    rw [hlater (by simp [Returns])]
    decide
  · obtain ⟨s, hs⟩ := exists_ok (x := (bookConverter.shape 9 pageType).outcome) (by decide)
    have hturn : bookConverter.Turns 9 ⟨References.seeded pageType, []⟩
        ⟨(References.seeded pageType).record (bookConverter.shape 9 pageType).mentions,
          [("Page", s)]⟩ := by
      refine ⟨[], bookConverter.round 9 pageType, ?_⟩
      rw [run_turn_of_some _ _ rfl, hs]
      rfl
    obtain ⟨-, hnext⟩ := (hloop pageType).2 _ Relation.ReflTransGen.refl
    exact ⟨_, hturn, (hnext "Page" pageType rfl).2 _ hturn⟩

end Converter

end GraphShape
