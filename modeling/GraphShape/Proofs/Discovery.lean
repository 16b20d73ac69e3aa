import GraphShape.Conversion.Document
import GraphShape.Proofs.Walking

/-!
# What a root's document defines

The worklist holds references and definitions. The key fact is that the definitions are always
those of the first references, and that the references are the first occurrences among the root
and the mentions of what is defined, so when the two are equally long nothing is left to define.
-/

namespace GraphShape

namespace References

theorem names_putNew (references : References) (o : ObjectType) :
    Members.names (Members.putNew references o.name o) =
      addNew (Members.names references) o.name := by
  unfold addNew
  split
  · rename_i h
    rw [Members.putNew_of_mem _ (List.contains_iff_mem.mp h)]
  · rename_i h
    rw [List.contains_iff_mem] at h
    rw [Members.putNew_of_not_mem _ h, Members.names_append]
    rfl

theorem record_cons (references : References) (o : ObjectType) (rest : List ObjectType) :
    references.record (o :: rest) = record (Members.putNew references o.name o) rest := rfl

theorem names_record (references : References) (mentions : List ObjectType) :
    Members.names (references.record mentions) =
      (mentions.map ObjectType.name).foldl addNew (Members.names references) := by
  induction mentions generalizing references with
  | nil => rfl
  | cons o rest ih =>
    rw [record_cons, ih, names_putNew]
    rfl

theorem prefix_record (references : References) (mentions : List ObjectType) :
    references <+: references.record mentions := by
  induction mentions generalizing references with
  | nil => exact List.prefix_refl _
  | cons o rest ih =>
    rw [record_cons]
    refine List.IsPrefix.trans ?_ (ih (Members.putNew references o.name o))
    by_cases h : o.name ∈ Members.names references
    · exact (Members.putNew_of_mem o h).symm ▸ List.prefix_refl references
    · exact (Members.putNew_of_not_mem o h).symm ▸ List.prefix_append references _

theorem mem_record {references : References} {mentions : List ObjectType} {r : String × ObjectType}
    (h : r ∈ references.record mentions) :
    r ∈ references ∨ r.2 ∈ mentions ∧ r.2.name = r.1 ∧ r.1 ∉ Members.names references := by
  induction mentions generalizing references with
  | nil => exact Or.inl h
  | cons o rest ih =>
    rw [record_cons] at h
    rcases ih h with h | ⟨hr, hname, hnew⟩
    · by_cases ho : o.name ∈ Members.names references
      · rw [Members.putNew_of_mem _ ho] at h
        exact Or.inl h
      · rw [Members.putNew_of_not_mem _ ho, List.mem_append, List.mem_singleton] at h
        rcases h with h | rfl
        · exact Or.inl h
        · exact Or.inr ⟨List.mem_cons_self, rfl, ho⟩
    · refine Or.inr ⟨List.mem_cons_of_mem _ hr, hname, ?_⟩
      intro hmem
      apply hnew
      rw [names_putNew, mem_addNew]
      exact Or.inl hmem

end References

namespace Schema

/-! ## Documents and their definitions -/

def definitions (doc : Schema) : Members Json := ((doc.get? definitionsKey).bind Json.members?).getD []

def withoutDefinitions (doc : Schema) : Schema := keywords (Members.erase doc.members definitionsKey)

theorem get?_put_definitions (s : Schema) (ds : Members Schema) :
    (s.put definitionsKey (Converter.definitionsJson ds)).get? definitionsKey =
      some (.object (ds.map (fun m => (m.1, m.2.toJson)))) := Members.get?_put_self _ _ _

theorem definitions_put (s : Schema) (ds : Members Schema) :
    (s.put definitionsKey (Converter.definitionsJson ds)).definitions =
      ds.map (fun m => (m.1, m.2.toJson)) := by
  rw [definitions, get?_put_definitions]
  rfl

theorem mem_of_get?_definitions {ds : Members Schema} {n : String} {j : Json}
    (h : Members.get? (ds.map (fun m => (m.1, m.2.toJson))) n = some j) :
    ∃ s, (n, s) ∈ ds ∧ j = s.toJson := by
  obtain ⟨⟨m, s⟩, hd, heq⟩ := List.mem_map.mp (Members.mem_of_get? h)
  obtain ⟨rfl, rfl⟩ := Prod.mk.inj heq
  exact ⟨s, hd, rfl⟩

theorem withoutDefinitions_put {ms : Members Json} (h : definitionsKey ∉ Members.names ms) (v : Json) :
    ((keywords ms).put definitionsKey v).withoutDefinitions = keywords ms := by
  rw [withoutDefinitions, put, members, members, Members.put_of_not_mem v h, Members.erase,
    List.filter_append]
  have hkeep : ms.filter (fun m => decide (m.1 ≠ definitionsKey)) = ms := by
    rw [List.filter_eq_self]
    intro m hm
    rw [decide_eq_true_eq]
    rintro heq
    exact h (heq ▸ Members.mem_names_of_mem hm)
  rw [hkeep]
  simp

theorem names_definitions_put (s : Schema) (ds : Members Schema) :
    Members.names (s.put definitionsKey (Converter.definitionsJson ds)).definitions =
      Members.names ds := by
  rw [definitions_put, Members.names, List.map_map]
  rfl

end Schema

namespace Converter

/-! ## Rounds of the worklist -/

/-- One round: the first reference without a definition gets one, and its mentions are recorded. -/
def Advances (c : Converter) (depth : Nat) (p q : Progress) : Prop :=
  ∃ n o s, p.references[p.definitions.length]? = some (n, o) ∧ (c.shape depth o).outcome = .ok s ∧
    q = ⟨p.references.record (c.shape depth o).mentions, p.definitions.put o.name s⟩

/-- No reference is without a definition. -/
def Finished (p : Progress) : Prop := p.references[p.definitions.length]? = none

theorem discover_ok {c : Converter} {depth n : Nat} {p q : Progress}
    (h : (c.discover depth n p).outcome = .ok q) :
    Relation.ReflTransGen (c.Advances depth) p q ∧ Finished q := by
  induction n generalizing p with
  | zero => simp [discover] at h
  | succ n ih =>
    rw [discover] at h
    split at h
    · rename_i hnone
      cases h
      exact ⟨Relation.ReflTransGen.refl, hnone⟩
    · rename_i name o hsome
      cases hwalk : (c.shape depth o).outcome with
      | error e => simp [hwalk] at h
      | ok s =>
        simp only [hwalk] at h
        obtain ⟨hrun, hdone⟩ := ih h
        exact ⟨Relation.ReflTransGen.head ⟨name, o, s, hsome, hwalk, rfl⟩ hrun, hdone⟩

/-- The references are in the order of discovery and all reached, each stands for its object type,
and the definitions are the shapes of the first of them. -/
structure Found (c : Converter) (depth : Nat) (root : ObjectType) (p : Progress) : Prop where
  order : Members.names p.references =
    dropRepeats (root.name :: (Members.names p.definitions).flatMap (c.types.mentionsFrom root))
  stored : ∀ r ∈ p.references, c.types.objectFrom root r.1 = some r.2 ∧ r.2.name = r.1
  reached : ∀ n ∈ Members.names p.references, c.types.Reaches root n
  defined : List.Forall₂
    (fun (r : String × ObjectType) s => s.1 = r.1 ∧ (c.shape depth r.2).outcome = .ok s.2)
    (p.references.take p.definitions.length) p.definitions

variable {c : Converter} {depth : Nat} {root : ObjectType} {p q : Progress}

theorem found_seeded (c : Converter) (depth : Nat) (root : ObjectType) :
    c.Found depth root ⟨References.seeded root, []⟩ := by
  refine ⟨rfl, ?_, ?_, List.Forall₂.nil⟩
  · intro r hr
    rw [List.mem_singleton.mp hr]
    exact ⟨c.types.objectFrom_root root, rfl⟩
  · intro n hn
    rw [List.mem_singleton.mp hn]
    exact Relation.ReflTransGen.refl

theorem Found.nodup (h : c.Found depth root p) : (Members.names p.references).Nodup := by
  rw [h.order]
  exact nodup_dropRepeats _

theorem Found.root_mem (h : c.Found depth root p) : root.name ∈ Members.names p.references := by
  rw [h.order, mem_dropRepeats]
  exact List.mem_cons_self

theorem Found.length_le (h : c.Found depth root p) :
    p.definitions.length ≤ p.references.length := by
  have hlen := h.defined.length_eq
  rw [List.length_take] at hlen
  omega

theorem Found.names_definitions (h : c.Found depth root p) :
    Members.names p.definitions = (Members.names p.references).take p.definitions.length := by
  have hnames : ∀ (rs : References) (ds : Members Schema),
      List.Forall₂ (fun (r : String × ObjectType) s =>
        s.1 = r.1 ∧ (c.shape depth r.2).outcome = .ok s.2) rs ds →
      Members.names ds = Members.names rs := by
    intro rs ds hall
    induction hall with
    | nil => rfl
    | cons hrs _ ih => exact congrArg₂ _ hrs.1 ih
  rw [hnames _ _ h.defined, Members.names, Members.names, List.map_take]

theorem Found.references_eq (h : c.Found depth root p) {r : String × ObjectType}
    (hr : p.references[p.definitions.length]? = some r) :
    ∃ rest, Members.names p.references = Members.names p.definitions ++ r.1 :: rest := by
  obtain ⟨hlt, hget⟩ := List.getElem?_eq_some_iff.mp hr
  refine ⟨Members.names (p.references.drop (p.definitions.length + 1)), ?_⟩
  rw [h.names_definitions, ← hget, Members.names, Members.names, ← List.map_take, ← List.map_cons,
    ← List.map_append, ← List.drop_eq_getElem_cons hlt, List.take_append_drop]

theorem Found.next_not_mem (h : c.Found depth root p) {r : String × ObjectType}
    (hr : p.references[p.definitions.length]? = some r) : r.1 ∉ Members.names p.definitions := by
  obtain ⟨rest, hrest⟩ := h.references_eq hr
  have hnodup := h.nodup
  rw [hrest, List.nodup_append] at hnodup
  exact fun hmem => hnodup.2.2 _ hmem _ List.mem_cons_self rfl

/-- A round keeps the invariant. -/
theorem Found.advances (hl : c.types.Lawful) (h : c.Found depth root p)
    (hstep : c.Advances depth p q) : c.Found depth root q := by
  obtain ⟨n, o, s, hnext, hwalk, rfl⟩ := hstep
  obtain ⟨hgrounded, hmentions, hmap⟩ := shape_mentions hl hwalk
  have hmem : (n, o) ∈ p.references := List.mem_of_getElem? hnext
  obtain ⟨hobject, hname⟩ := h.stored _ hmem
  simp only at hobject hname
  subst hname
  have hnew := h.next_not_mem hnext
  have hnames : Members.names (p.definitions.put o.name s) =
      Members.names p.definitions ++ [o.name] := by
    rw [Members.names_put, if_neg hnew]
  have hlength : (p.definitions.put o.name s).length = p.definitions.length + 1 := by
    rw [Members.put_of_not_mem _ hnew, List.length_append, List.length_singleton]
  have hreached := h.reached _ (Members.mem_names_of_mem hmem)
  refine ⟨?_, ?_, ?_, ?_⟩
  · -- The new references are those of the mentions that are not there.
    simp only
    rw [References.names_record, hmentions, h.order, hnames, List.flatMap_append, ← List.cons_append,
      dropRepeats_append, List.flatMap_singleton, TypeMap.mentionsFrom_eq hobject]
  · intro r hr
    rcases References.mem_record hr with hr | ⟨hr, hrname, hnot⟩
    · exact h.stored r hr
    · refine ⟨?_, hrname⟩
      apply TypeMap.objectFrom_of_ne
      · rintro heq
        exact hnot (heq ▸ h.root_mem)
      · rw [← hrname]
        exact hmap _ hr
  · intro k hk
    simp only at hk
    rw [References.names_record, mem_foldl_addNew] at hk
    rcases hk with hk | hk
    · exact h.reached k hk
    · rw [hmentions] at hk
      exact hreached.tail ⟨o, hobject, (TypeMap.mem_mentions_iff hgrounded).mp hk⟩
  · -- Recording moves no reference, so the definitions stay those of the first ones.
    have hlt : p.definitions.length < p.references.length := (List.getElem?_eq_some_iff.mp hnext).1
    obtain ⟨more, hmore⟩ := References.prefix_record p.references (c.shape depth o).mentions
    simp only
    rw [hlength, ← hmore, List.take_append_of_le_length (by omega), List.take_add_one, hnext,
      Members.put_of_not_mem _ hnew]
    exact List.rel_append h.defined (List.Forall₂.cons ⟨rfl, hwalk⟩ List.Forall₂.nil)

theorem Found.run (hl : c.types.Lawful) (h : c.Found depth root p)
    (hrun : Relation.ReflTransGen (c.Advances depth) p q) : c.Found depth root q := by
  induction hrun with
  | refl => exact h
  | tail _ hstep ih => exact ih.advances hl hstep

theorem Found.names_eq (h : c.Found depth root p) (hdone : Finished p) :
    Members.names p.definitions = Members.names p.references := by
  rw [h.names_definitions, List.take_of_length_le]
  rw [Members.names, List.length_map]
  exact List.getElem?_eq_none_iff.mp hdone

theorem Found.shape_of_mem (h : c.Found depth root p) {d : String × Schema}
    (hd : d ∈ p.definitions) :
    ∃ o, c.types.objectFrom root d.1 = some o ∧ (c.shape depth o).outcome = .ok d.2 := by
  obtain ⟨r, hr, hname, hwalk⟩ := forall₂_mem_right h.defined hd
  obtain ⟨hobject, -⟩ := h.stored r (List.mem_of_mem_take hr)
  exact ⟨r.2, hname ▸ hobject, hwalk⟩

theorem Found.first (h : c.Found depth root p) (hdone : Finished p) :
    ∃ s rest, p.definitions = (root.name, s) :: rest := by
  -- The root is a reference from the start.
  have hnames := h.names_eq hdone
  obtain ⟨more, hmore⟩ := dropRepeats_cons root.name
    ((Members.names p.definitions).flatMap (c.types.mentionsFrom root))
  rw [h.order, hmore] at hnames
  cases hdefs : p.definitions with
  | nil =>
    rw [hdefs] at hnames
    cases hnames
  | cons first rest =>
    obtain ⟨n, s⟩ := first
    rw [hdefs, Members.names_cons] at hnames
    exact ⟨s, rest, by rw [(List.cons.inj hnames).1]⟩

/-! ## The document of a root -/

/-- What a root's document is assembled from: its own shape, and the definitions of what else it
reaches in the order of discovery. -/
structure Discovered (c : Converter) (root : ObjectType) (s : Schema) (rest : Members Schema) :
    Prop where
  root_shape : (c.shape (c.depth (some root)) root).outcome = .ok s
  nodup : (root.name :: Members.names rest).Nodup
  order : root.name :: Members.names rest =
    dropRepeats (root.name ::
      (root.name :: Members.names rest).flatMap (c.types.mentionsFrom root))
  reached : ∀ n ∈ Members.names rest, c.types.Reaches root n
  shapes : ∀ d ∈ rest, ∃ o, c.types.get? d.1 = some (.object o) ∧
    (c.shape (c.depth (some root)) o).outcome = .ok d.2

theorem convert_ok (hl : c.types.Lawful) {doc : Schema} (h : (c.convert root).outcome = .ok doc) :
    ∃ s rest, c.Discovered root s rest ∧ doc = s.put definitionsKey (definitionsJson rest) := by
  rw [convert] at h
  cases hrun : (c.discover (c.depth (some root)) (c.types.objects.length + 2)
    ⟨References.seeded root, []⟩).outcome with
  | error e => simp [hrun, Except.map] at h
  | ok p =>
    simp only [hrun, Except.map, Except.ok.injEq] at h
    obtain ⟨hrounds, hdone⟩ := discover_ok hrun
    have hfound := (found_seeded c _ root).run hl hrounds
    have hnames := hfound.names_eq hdone
    have horder := hfound.order
    rw [← hnames] at horder
    have hnodup := hfound.nodup
    rw [← hnames] at hnodup
    obtain ⟨s, rest, hdefs⟩ := hfound.first hdone
    rw [hdefs, Members.names_cons] at hnodup horder
    have hshape : ∀ d ∈ (root.name, s) :: rest, ∃ o, c.types.objectFrom root d.1 = some o ∧
        (c.shape (c.depth (some root)) o).outcome = .ok d.2 :=
      fun d hd => hfound.shape_of_mem (hdefs ▸ hd)
    refine ⟨s, rest, ⟨?_, hnodup, horder, ?_, ?_⟩, ?_⟩
    · obtain ⟨o, ho, hs⟩ := hshape (root.name, s) List.mem_cons_self
      rw [TypeMap.objectFrom_root, Option.some.injEq] at ho
      exact ho ▸ hs
    · intro k hk
      apply hfound.reached
      rw [← hnames, hdefs]
      exact List.mem_cons_of_mem _ hk
    · intro d hd
      obtain ⟨o, ho, hs⟩ := hshape d (List.mem_cons_of_mem _ hd)
      refine ⟨o, TypeMap.get?_of_objectFrom ?_ ho, hs⟩
      intro heq
      exact (List.nodup_cons.mp hnodup).1 (heq ▸ Members.mem_names_of_mem hd)
    · rw [← h, hdefs]
      rfl

section Discovered

variable {s : Schema} {rest : Members Schema}

theorem Discovered.walked (h : c.Discovered root s rest) {n : String}
    (hn : n ∈ root.name :: Members.names rest) :
    ∃ o s, c.types.objectFrom root n = some o ∧ (c.shape (c.depth (some root)) o).outcome = .ok s := by
  rcases List.mem_cons.mp hn with rfl | hn
  · exact ⟨root, s, c.types.objectFrom_root root, h.root_shape⟩
  · obtain ⟨d, hd, rfl⟩ := List.mem_map.mp hn
    obtain ⟨o, ho, hs⟩ := h.shapes d hd
    refine ⟨o, d.2, TypeMap.objectFrom_of_ne ?_ ho, hs⟩
    rintro heq
    exact (List.nodup_cons.mp h.nodup).1 (heq ▸ hn)

theorem Discovered.mem_mentionsFrom_iff (hl : c.types.Lawful) (h : c.Discovered root s rest)
    {n : String} (hn : n ∈ root.name :: Members.names rest) (k : String) :
    k ∈ c.types.mentionsFrom root n ↔ c.types.Edge root n k := by
  obtain ⟨o, s', ho, hs⟩ := h.walked hn
  rw [TypeMap.mentionsFrom_eq ho, TypeMap.mem_mentions_iff (shape_mentions hl hs).1]
  constructor
  · exact fun hk => ⟨o, ho, hk⟩
  · rintro ⟨o', ho', hk⟩
    rw [ho, Option.some.injEq] at ho'
    exact ho' ▸ hk

theorem Discovered.mem_iff_reaches (hl : c.types.Lawful) (h : c.Discovered root s rest)
    (n : String) : n ∈ root.name :: Members.names rest ↔ c.types.Reaches root n := by
  constructor
  · intro hn
    rcases List.mem_cons.mp hn with rfl | hn
    · exact Relation.ReflTransGen.refl
    · exact h.reached n hn
  · intro hn
    induction hn with
    | refl => exact List.mem_cons_self
    | tail _ hstep ih =>
      rw [h.order, mem_dropRepeats]
      apply List.mem_cons_of_mem
      rw [List.mem_flatMap]
      exact ⟨_, ih, (h.mem_mentionsFrom_iff hl ih _).mpr hstep⟩

end Discovered

/-- **Definition completeness.** A root's document defines what the root reaches, breadth first. -/
theorem convert_defines_reachable {c : Converter} (hl : c.types.Lawful) {root : ObjectType}
    {doc : Schema} (h : (c.convert root).outcome = .ok doc) :
    ∃ defs : Members Json, doc.get? definitionsKey = some (.object defs) ∧
      (Members.names defs).Nodup ∧
      (∀ n, n ∈ Members.names defs ↔ c.types.Reaches root n ∧ n ≠ root.name) ∧
      root.name :: Members.names defs = dropRepeats (root.name ::
        (root.name :: Members.names defs).flatMap (c.types.mentionsFrom root)) ∧
      ∀ n ∈ root.name :: Members.names defs, ∀ k,
        k ∈ c.types.mentionsFrom root n ↔ c.types.Edge root n k := by
  obtain ⟨s, rest, hfound, rfl⟩ := convert_ok hl h
  refine ⟨_, Schema.get?_put_definitions s rest, ?_⟩
  rw [← Schema.definitions_put s, Schema.names_definitions_put]
  obtain ⟨hroot, hnodup⟩ := List.nodup_cons.mp hfound.nodup
  refine ⟨hnodup, ?_, hfound.order, fun n hn => hfound.mem_mentionsFrom_iff hl hn⟩
  intro n
  rw [← hfound.mem_iff_reaches hl, List.mem_cons]
  constructor
  · intro hn
    refine ⟨Or.inr hn, ?_⟩
    rintro rfl
    exact hroot hn
  · rintro ⟨hn | hn, hne⟩
    · exact absurd hn hne
    · exact hn

def bookTypes : TypeMap := TypeMap.ofDefs
  [.object ⟨"Book", none, [⟨"parts", .list (.list (.named "Part" false) true) false, none⟩]⟩,
    .union "Part" ["Cover", "Page"],
    .object ⟨"Page", none,
      [⟨"next", .named "Page" false, none⟩, ⟨"book", .named "Book" true, none⟩]⟩,
    .object ⟨"Cover", none, [⟨"title", .named "String" true, none⟩]⟩,
    .scalar "String",
    .object ⟨"Stray", none, [⟨"book", .named "Book" false, none⟩]⟩]

def bookConverter : Converter := plain bookTypes Policy.never

/-- A root that hides the map's type of its name. -/
def lastPages : ObjectType :=
  ⟨"Book", none, [⟨"last", .named "Page" true, none⟩, ⟨"any", .named "Part" false, none⟩]⟩

theorem exists_ok {ε α : Type} {x : Except ε α} (h : x.isOk = true) : ∃ a, x = .ok a := by
  cases x with
  | error e => simp [Except.isOk, Except.toBool] at h
  | ok a => exact ⟨a, rfl⟩

theorem convert_defines_reachable_books : ∃ doc defs, bookTypes.Lawful ∧
    (bookConverter.convert lastPages).outcome = .ok doc ∧
    doc.get? definitionsKey = some (.object defs) ∧
    ∀ n, n ∈ Members.names defs ↔ bookTypes.Reaches lastPages n ∧ n ≠ "Book" := by
  have hl : bookTypes.Lawful := TypeMap.ofDefs_lawful _
  obtain ⟨doc, hdoc⟩ := exists_ok (by decide : (bookConverter.convert lastPages).outcome.isOk = true)
  obtain ⟨defs, hdefs, -, hmem, -⟩ := convert_defines_reachable (c := bookConverter) hl hdoc
  exact ⟨doc, defs, hl, hdoc, hdefs, hmem⟩

end Converter

end GraphShape
