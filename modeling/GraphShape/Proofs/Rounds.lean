import GraphShape.Proofs.Termination

/-!
# What a conversion logs

A conversion logs a round for each object type that it walks, and a summary at its end. The key fact
is that the rounds are those of the definitions so far, so a log tells what is in the document, or
how far the conversion came before a walk stopped it.
-/

namespace GraphShape

theorem walkedTypes_append (events more : List Event) :
    walkedTypes (events ++ more) = walkedTypes events ++ walkedTypes more :=
  List.filterMap_append

/-- The number that a summary counts. -/
def Event.summary? : Event → Option Nat
  | converted count => some count
  | _ => none

def summaries (events : List Event) : List Nat := events.filterMap Event.summary?

theorem summaries_append (events more : List Event) :
    summaries (events ++ more) = summaries events ++ summaries more :=
  List.filterMap_append

theorem summaries_eq_nil {events : List Event} (h : ∀ e ∈ events, e.summary? = none) :
    summaries events = [] :=
  List.filterMap_eq_nil_iff.mpr h

/-- The log of a success: what was walked, and one summary at the end. -/
structure Complete (events : List Event) (walked : List String) (count : Nat) : Prop where
  walked : walkedTypes events = walked
  summary : summaries events = [count]
  last : events.getLast? = some (.converted count)

/-- The log of a failure: what was walked, and no summary. -/
structure CutShort (events : List Event) (walked : List String) : Prop where
  walked : walkedTypes events = walked
  summary : summaries events = []

namespace TypeMap

theorem objectFrom_name {types : TypeMap} (hl : types.Lawful) {root o : ObjectType} {n : String}
    (h : types.objectFrom root n = some o) : o.name = n := by
  by_cases hn : n = root.name
  · rw [hn, objectFrom_root, Option.some.injEq] at h
    rw [hn, h]
  · exact hl.object_name (get?_of_objectFrom hn h)

theorem flatMap_names {types : TypeMap} {root : ObjectType} {α : Type} {f : String → List α}
    {g : ObjectType → List α} (hfg : ∀ n o, types.objectFrom root n = some o → f n = g o)
    {os : List ObjectType} (h : ∀ o ∈ os, types.objectFrom root o.name = some o) :
    (os.map ObjectType.name).flatMap f = os.flatMap g := by
  rw [List.flatMap_map]
  apply List.flatMap_congr
  exact fun o ho => hfg o.name o (h o ho)

end TypeMap

namespace Converter

variable {c : Converter} {depth : Nat} {root : ObjectType}

/-! ## Rounds -/

theorem round_walked (c : Converter) (depth : Nat) (o : ObjectType) :
    walkedTypes (c.round depth o) = [o.name] := by
  simpa [round] using walkedTypes_round c depth o []

theorem round_summaries (c : Converter) (depth : Nat) (o : ObjectType) :
    summaries (c.round depth o) = [] := by
  apply summaries_eq_nil
  intro e he
  rcases List.mem_cons.mp he with rfl | he
  · rfl
  · obtain ⟨n, hn⟩ := shape_reports he
    rcases scalar_reports hn with ⟨-, rfl | rfl⟩ <;> rfl

theorem rounds_walked (c : Converter) (depth : Nat) (os : List ObjectType) :
    walkedTypes (os.flatMap (c.round depth)) = os.map ObjectType.name := by
  induction os with
  | nil => rfl
  | cons o rest ih => rw [List.flatMap_cons, walkedTypes_append, round_walked, ih]; rfl

theorem rounds_summaries (c : Converter) (depth : Nat) (os : List ObjectType) :
    summaries (os.flatMap (c.round depth)) = [] := by
  induction os with
  | nil => rfl
  | cons o rest ih => rw [List.flatMap_cons, summaries_append, round_summaries, ih]; rfl

theorem rounds_complete (c : Converter) (depth : Nat) (os : List ObjectType) (count : Nat) :
    Complete (os.flatMap (c.round depth) ++ [.converted count]) (os.map ObjectType.name) count := by
  constructor
  · rw [walkedTypes_append, rounds_walked, walkedTypes_converted, List.append_nil]
  · rw [summaries_append, rounds_summaries]
    rfl
  · exact List.getLast?_concat

theorem rounds_cutShort (c : Converter) (depth : Nat) (os : List ObjectType) :
    CutShort (os.flatMap (c.round depth)) (os.map ObjectType.name) :=
  ⟨rounds_walked c depth os, rounds_summaries c depth os⟩

theorem exists_walked (hl : c.types.Lawful) {names : List String}
    (h : ∀ n ∈ names, ∃ o s, c.types.objectFrom root n = some o ∧
      (c.shape depth o).outcome = .ok s) :
    ∃ os : List ObjectType, os.map ObjectType.name = names ∧
      ∀ o ∈ os, c.types.objectFrom root o.name = some o ∧
        ∃ s, (c.shape depth o).outcome = .ok s := by
  induction names with
  | nil => exact ⟨[], rfl, by simp⟩
  | cons n rest ih =>
    obtain ⟨o, s, ho, hs⟩ := h n List.mem_cons_self
    obtain ⟨os, hnames, hos⟩ := ih (fun k hk => h k (List.mem_cons_of_mem _ hk))
    have hname := TypeMap.objectFrom_name hl ho
    refine ⟨o :: os, by rw [List.map_cons, hname, hnames], ?_⟩
    exact List.forall_mem_cons.mpr ⟨⟨hname ▸ ho, s, hs⟩, hos⟩

/-! ## A root and what it reaches -/

theorem Found.names_assemble {q : Progress} (h : c.Found depth root q) (hdone : Finished q) :
    root.name :: Members.names (assemble q.definitions).definitions = Members.names q.references := by
  obtain ⟨s, rest, hdefs⟩ := h.first hdone
  rw [← h.names_eq hdone, hdefs, assemble, Schema.names_definitions_put, Members.names_cons]

theorem Found.walked {q : Progress} (h : c.Found depth root q) :
    ∀ n ∈ Members.names q.definitions, ∃ o s, c.types.objectFrom root n = some o ∧
      (c.shape depth o).outcome = .ok s := by
  intro n hn
  obtain ⟨d, hd, rfl⟩ := List.mem_map.mp hn
  obtain ⟨o, ho, hs⟩ := h.shape_of_mem hd
  exact ⟨o, d.2, ho, hs⟩

/-- A log has the rounds of what is defined, or those up to a failed walk. -/
theorem convert_rounds (hl : c.types.Lawful) (root : ObjectType) :
    (∃ doc, (c.convert root).outcome = .ok doc ∧
      (∀ n ∈ root.name :: Members.names doc.definitions, ∃ o s,
        c.types.objectFrom root n = some o ∧ (c.shape (c.depth (some root)) o).outcome = .ok s) ∧
      (c.convert root).events =
        (root.name :: Members.names doc.definitions).flatMap
          (c.roundFrom (c.depth (some root)) root) ++ [.converted (1 + doc.definitions.length)]) ∨
    ∃ q r stop, Relation.ReflTransGen (c.Advances (c.depth (some root)))
        ⟨References.seeded root, []⟩ q ∧ q.references[q.definitions.length]? = some r ∧
      (c.shape (c.depth (some root)) r.2).outcome = .error stop ∧
      (c.convert root).outcome = .error stop ∧
      (c.convert root).events = (Members.names q.definitions).flatMap
        (c.roundFrom (c.depth (some root)) root) ++ c.round (c.depth (some root)) r.2 := by
  have hseeded := found_seeded c (c.depth (some root)) root
  obtain ⟨q, hrun, hends⟩ := discover_rounds hl hseeded (Nat.le_refl _)
  have hq := hseeded.run hl hrun
  rw [Members.names_nil, List.flatMap_nil, List.nil_append] at hends
  rcases hends with ⟨hdone, hok, hevents⟩ | ⟨r, stop, hnext, hwalk, herror, hevents⟩
  · left
    have hnames := hq.names_assemble hdone
    have hcount : 1 + (assemble q.definitions).definitions.length = q.references.length := by
      have hlength := congrArg List.length hnames
      simp only [List.length_cons, Members.names, List.length_map] at hlength
      omega
    refine ⟨assemble q.definitions, ?_, ?_, ?_⟩
    · rw [convert, hok]
      rfl
    · rw [hnames, ← hq.names_eq hdone]
      exact hq.walked
    · rw [hnames, ← hq.names_eq hdone, hcount]
      exact hevents
  · right
    refine ⟨q, r, stop, hrun, hnext, hwalk, ?_, hevents⟩
    rw [convert, herror]
    rfl

theorem convert_ok_rounds (hl : c.types.Lawful) {doc : Schema}
    (h : (c.convert root).outcome = .ok doc) :
    (∀ n ∈ root.name :: Members.names doc.definitions, ∃ o s,
      c.types.objectFrom root n = some o ∧ (c.shape (c.depth (some root)) o).outcome = .ok s) ∧
    (c.convert root).events = (root.name :: Members.names doc.definitions).flatMap
      (c.roundFrom (c.depth (some root)) root) ++ [.converted (1 + doc.definitions.length)] := by
  rcases convert_rounds hl root with ⟨doc', hdoc, hwalked, hevents⟩ | ⟨q, r, stop, -, -, -, hstop, -⟩
  · obtain rfl : doc = doc' := Except.ok.inj (h.symm.trans hdoc)
    exact ⟨hwalked, hevents⟩
  · rw [h] at hstop
    cases hstop

theorem convert_complete (hl : c.types.Lawful) {doc : Schema}
    (h : (c.convert root).outcome = .ok doc) :
    Complete (c.convert root).events (root.name :: Members.names doc.definitions)
      (1 + doc.definitions.length) := by
  obtain ⟨hwalked, hevents⟩ := convert_ok_rounds hl h
  obtain ⟨os, hnames, hos⟩ := exists_walked hl hwalked
  rw [hevents, ← hnames, TypeMap.flatMap_names (fun _ _ => roundFrom_eq) (fun o ho => (hos o ho).1)]
  exact rounds_complete c _ os _

theorem convert_cutShort (hl : c.types.Lawful) (ha : c.types.Acyclic) {stop : Stop}
    (h : (c.convert root).outcome = .error stop) :
    ∃ before o, CutShort (c.convert root).events (before ++ [o.name]) ∧
      before ++ [o.name] <+: c.types.discoveryOrder root ∧
      c.types.objectFrom root o.name = some o ∧
      (c.shape (c.depth (some root)) o).outcome = .error stop ∧
      ∀ n ∈ before, ∃ o s, c.types.objectFrom root n = some o ∧
        (c.shape (c.depth (some root)) o).outcome = .ok s := by
  rcases convert_rounds hl root with ⟨doc, hdoc, -⟩ | ⟨q, r, stop', hrun, hnext, hwalk, hstop, hevents⟩
  · rw [h] at hdoc
    cases hdoc
  · obtain rfl : stop = stop' := Except.error.inj (h.symm.trans hstop)
    have hq := (found_seeded c (c.depth (some root)) root).run hl hrun
    obtain ⟨hobject, hname⟩ := hq.stored r (List.mem_of_getElem? hnext)
    rw [← hname] at hobject
    refine ⟨Members.names q.definitions, r.2, ?_, ?_, hobject, hwalk, hq.walked⟩
    · obtain ⟨os, hnames, hos⟩ := exists_walked hl hq.walked
      have hcut := rounds_cutShort c (c.depth (some root)) (os ++ [r.2])
      rwa [List.flatMap_append, List.flatMap_singleton, List.map_append, hnames,
        ← TypeMap.flatMap_names (fun _ _ => roundFrom_eq) (fun o ho => (hos o ho).1), hnames,
        ← hevents] at hcut
    · -- What has a definition and the next reference are the first references.
      obtain ⟨rest, hrest⟩ := hq.references_eq hnext
      refine List.IsPrefix.trans ⟨rest, ?_⟩ (references_prefix_discoveryOrder hl ha hrun)
      rw [hrest, hname, List.append_assoc, List.singleton_append]

/-! ## The whole map -/

theorem defineAll_rounds (c : Converter) (depth : Nat) {types : TypeMap} (hl : types.Lawful)
    (ds : Members Schema) :
    (∃ all, (c.defineAll depth types ds).outcome = .ok all ∧
      (c.defineAll depth types ds).events =
        types.objects.flatMap (c.round depth) ++ [.converted all.length]) ∨
    ∃ before o after stop, types.objects = before ++ o :: after ∧
      (∀ o ∈ before, ∃ s, (c.shape depth o).outcome = .ok s) ∧
      (c.shape depth o).outcome = .error stop ∧
      (c.defineAll depth types ds).outcome = .error stop ∧
      (c.defineAll depth types ds).events = (before ++ [o]).flatMap (c.round depth) := by
  induction types using TypeMap.objects_induct generalizing ds with
  | nil => exact Or.inl ⟨ds, rfl, rfl⟩
  | other m rest hd ih =>
    rw [defineAll_other c depth rest ds hd, TypeMap.objects_cons_other rest hd]
    exact ih hl.rest ds
  | object name o rest ih =>
    obtain rfl : o.name = name := hl.keyed _ List.mem_cons_self
    rw [defineAll, TypeMap.objects_cons_object]
    cases hwalk : (c.shape depth o).outcome with
    | error stop =>
      right
      refine ⟨[], o, rest.objects, stop, rfl, by simp, hwalk, rfl, ?_⟩
      rw [List.nil_append, List.flatMap_singleton, round]
    | ok s =>
      simp only
      rcases ih hl.rest (ds.put o.name s) with ⟨all, hall, hevents⟩ |
        ⟨before, k, after, stop, hsplit, hbefore, hk, herror, hevents⟩
      · left
        refine ⟨all, hall, ?_⟩
        rw [hevents, List.flatMap_cons, round, List.cons_append, List.cons_append, List.append_assoc]
      · right
        refine ⟨o :: before, k, after, stop, by rw [hsplit]; rfl, ?_, hk, herror, ?_⟩
        · exact List.forall_mem_cons.mpr ⟨⟨s, hwalk⟩, hbefore⟩
        · rw [hevents, List.cons_append, List.flatMap_cons, round, List.cons_append]

theorem definitions_rounds (hl : c.types.Lawful) :
    (∃ doc, c.definitions.outcome = .ok doc ∧
      c.definitions.events = c.types.objects.flatMap (c.round (c.depth none)) ++
        [.converted doc.definitions.length]) ∨
    ∃ before o after stop, c.types.objects = before ++ o :: after ∧
      (∀ o ∈ before, ∃ s, (c.shape (c.depth none) o).outcome = .ok s) ∧
      (c.shape (c.depth none) o).outcome = .error stop ∧ c.definitions.outcome = .error stop ∧
      c.definitions.events = (before ++ [o]).flatMap (c.round (c.depth none)) := by
  rcases defineAll_rounds c (c.depth none) hl [] with
    ⟨all, hall, hevents⟩ | ⟨before, o, after, stop, hsplit, hbefore, ho, herror, hevents⟩
  · left
    refine ⟨(Schema.keywords []).put definitionsKey (definitionsJson all), ?_, ?_⟩
    · rw [definitions, hall]
      rfl
    · rw [Schema.definitions_put, List.length_map]
      exact hevents
  · right
    refine ⟨before, o, after, stop, hsplit, hbefore, ho, ?_, hevents⟩
    rw [definitions, herror]
    rfl

theorem definitions_ok_rounds (hl : c.types.Lawful) {doc : Schema}
    (h : c.definitions.outcome = .ok doc) :
    c.definitions.events = c.types.objects.flatMap (c.round (c.depth none)) ++
      [.converted doc.definitions.length] := by
  rcases definitions_rounds hl with ⟨doc', hdoc, hevents⟩ | ⟨before, o, after, stop, -, -, -, hstop, -⟩
  · obtain rfl : doc = doc' := Except.ok.inj (h.symm.trans hdoc)
    exact hevents
  · rw [h] at hstop
    cases hstop

theorem definitions_cutShort (hl : c.types.Lawful) {stop : Stop}
    (h : c.definitions.outcome = .error stop) :
    ∃ before o after, c.types.objects = before ++ o :: after ∧
      CutShort c.definitions.events ((before ++ [o]).map ObjectType.name) ∧
      (c.shape (c.depth none) o).outcome = .error stop ∧
      ∀ o ∈ before, ∃ s, (c.shape (c.depth none) o).outcome = .ok s := by
  rcases definitions_rounds hl with
    ⟨doc, hdoc, -⟩ | ⟨before, o, after, stop', hsplit, hbefore, ho, hstop, hevents⟩
  · rw [h] at hdoc
    cases hdoc
  · obtain rfl : stop = stop' := Except.error.inj (h.symm.trans hstop)
    refine ⟨before, o, after, hsplit, ?_, ho, hbefore⟩
    rw [hevents]
    exact rounds_cutShort c _ _

/-- **Logging.** A conversion logs what it defines, or what it walks until it stops. -/
theorem log_mirrors_document {c : Converter} (hl : c.types.Lawful) (ha : c.types.Acyclic) :
    -- A root, with its document or up to the walk that stopped it.
    (∀ root,
      (walkedTypes (c.convert root).events).Nodup ∧
      (∀ doc, (c.convert root).outcome = .ok doc →
        doc.get? definitionsKey = some (.object doc.definitions) ∧
        Complete (c.convert root).events (root.name :: Members.names doc.definitions)
          (1 + doc.definitions.length)) ∧
      (∀ stop, (c.convert root).outcome = .error stop → ∃ before o,
        CutShort (c.convert root).events (before ++ [o.name]) ∧
        before ++ [o.name] <+: c.types.discoveryOrder root ∧
        c.types.objectFrom root o.name = some o ∧
        (c.shape (c.depth (some root)) o).outcome = .error stop ∧
        ∀ n ∈ before, ∃ o s, c.types.objectFrom root n = some o ∧
          (c.shape (c.depth (some root)) o).outcome = .ok s) ∧
      c.types.discoveryOrder root = dropRepeats (root.name ::
        (c.types.discoveryOrder root).flatMap (c.types.mentionsFrom root))) ∧
    -- The whole map, in its own order.
    (∀ doc, c.definitions.outcome = .ok doc →
      Members.names doc.definitions = c.types.objects.map ObjectType.name ∧
      Complete c.definitions.events (c.types.objects.map ObjectType.name)
        doc.definitions.length) ∧
    ∀ stop, c.definitions.outcome = .error stop → ∃ before o after,
      c.types.objects = before ++ o :: after ∧
      CutShort c.definitions.events ((before ++ [o]).map ObjectType.name) ∧
      (c.shape (c.depth none) o).outcome = .error stop ∧
      ∀ o ∈ before, ∃ s, (c.shape (c.depth none) o).outcome = .ok s := by
  refine ⟨?_, ?_, fun stop hstop => definitions_cutShort hl hstop⟩
  · intro root
    refine ⟨?_, ?_, fun stop hstop => convert_cutShort hl ha hstop,
      (TypeMap.discoveryOrder_eq hl ha root).symm⟩
    · rw [convert_eq_within]
      exact (convertWithin_walked hl root _ _).1
    · intro doc hdoc
      refine ⟨?_, convert_complete hl hdoc⟩
      obtain ⟨s, rest, -, rfl⟩ := convert_ok hl hdoc
      rw [Schema.get?_put_definitions, Schema.definitions_put]
  · intro doc hdoc
    refine ⟨names_definitions hl hdoc, ?_⟩
    rw [definitions_ok_rounds hl hdoc]
    exact rounds_complete c _ _ _

theorem log_mirrors_document_shelves : bookTypes.Lawful ∧ bookTypes.Acyclic ∧
    (∃ doc, (bookConverter.convert lastPages).outcome = .ok doc ∧
      Members.names doc.definitions = ["Page", "Cover"] ∧
      (bookConverter.convert lastPages).events.getLast? = some (.converted 3)) ∧
    shelfTypes.Lawful ∧ shelfTypes.Acyclic ∧
    ∃ o stop, shelfTypes.objectFrom shelfType "Book" = some o ∧
      ((plain shelfTypes Policy.never).shape
        ((plain shelfTypes Policy.never).depth (some shelfType)) o).outcome = .error stop ∧
      ((plain shelfTypes Policy.never).convert shelfType).outcome = .error stop := by
  have hl : bookTypes.Lawful := TypeMap.ofDefs_lawful _
  have ha : bookTypes.Acyclic := (unionsOfObjects_of_all (by decide)).acyclic
  have hl' : shelfTypes.Lawful := TypeMap.ofDefs_lawful _
  have ha' : shelfTypes.Acyclic := (unionsOfObjects_of_all (by decide)).acyclic
  refine ⟨hl, ha, ?_, hl', ha', ?_⟩
  · obtain ⟨-, hsuccess, -⟩ := (log_mirrors_document (c := bookConverter) hl ha).1 lastPages
    obtain ⟨doc, hdoc⟩ := exists_ok (by decide : (bookConverter.convert lastPages).outcome.isOk = true)
    obtain ⟨-, hcomplete⟩ := hsuccess doc hdoc
    have hwalked : walkedTypes (bookConverter.convert lastPages).events = ["Book", "Page", "Cover"] := by
      decide
    rw [hcomplete.walked, List.cons.injEq] at hwalked
    refine ⟨doc, hdoc, hwalked.2, ?_⟩
    rw [hcomplete.last, ← List.length_map (f := Prod.fst), ← Members.names, hwalked.2]
    rfl
  · have hstop : ((plain shelfTypes Policy.never).convert shelfType).outcome =
        .error (.problem (.unsupportedKind "Person" "interface")) :=
      ((convert_endsIn hl' ha' shelfType).error_iff _).mpr ⟨_, by decide, rfl⟩
    obtain ⟨-, -, hfailure, -⟩ :=
      (log_mirrors_document (c := plain shelfTypes Policy.never) hl' ha').1 shelfType
    obtain ⟨before, o, hcut, -, hobject, hwalk, -⟩ := hfailure _ hstop
    have hwalked : walkedTypes ((plain shelfTypes Policy.never).convert shelfType).events =
        ["Shelf"] ++ ["Book"] := by decide
    rw [hcut.walked] at hwalked
    obtain ⟨-, hname⟩ := List.append_inj' hwalked rfl
    rw [(List.cons.inj hname).1] at hobject
    exact ⟨o, _, hobject, hwalk, hstop⟩

end Converter

end GraphShape
