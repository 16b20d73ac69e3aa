import GraphShape.Proofs.Discovery
import Mathlib.Data.List.Infix
import Mathlib.Logic.Function.Iterate

/-!
# The order of discovery

What a root reaches, in the order of a breadth first search. The order is defined by the mentions
alone: what is known is extended to the first occurrences among the root and all mentions, as often
as there are types. The key fact is that each extension keeps what was known in front and adds
something until nothing is left to add.
-/

namespace GraphShape

theorem prefix_foldl_addNew (texts seen : List String) : seen <+: texts.foldl addNew seen := by
  induction texts generalizing seen with
  | nil => exact List.prefix_refl seen
  | cons t rest ih =>
    refine List.IsPrefix.trans ?_ (ih (addNew seen t))
    unfold addNew
    split
    · exact List.prefix_refl seen
    · exact List.prefix_append seen [t]

theorem dropRepeats_prefix {texts more : List String} (h : texts <+: more) :
    dropRepeats texts <+: dropRepeats more := by
  obtain ⟨rest, rfl⟩ := h
  rw [dropRepeats_append]
  exact prefix_foldl_addNew rest _

namespace TypeMap

/-- The root and all mentions of the names that are known, each at its first occurrence. -/
def discoverMore (types : TypeMap) (root : ObjectType) (known : List String) : List String :=
  dropRepeats (root.name :: known.flatMap (types.mentionsFrom root))

def discoveredWithin (types : TypeMap) (root : ObjectType) (rounds : Nat) : List String :=
  (types.discoverMore root)^[rounds] [root.name]

/-- The names that a root reaches, in the order of a breadth first search. -/
def discoveryOrder (types : TypeMap) (root : ObjectType) : List String :=
  types.discoveredWithin root (types.objects.length + 1)

variable {types : TypeMap} {root : ObjectType}

theorem discoveredWithin_succ (types : TypeMap) (root : ObjectType) (rounds : Nat) :
    types.discoveredWithin root (rounds + 1) =
      types.discoverMore root (types.discoveredWithin root rounds) :=
  Function.iterate_succ_apply' _ _ _

theorem discoverMore_prefix {known more : List String} (h : known <+: more) :
    types.discoverMore root known <+: types.discoverMore root more :=
  dropRepeats_prefix ((List.prefix_cons_inj root.name).mpr (List.IsPrefix.flatMap h _))

theorem root_prefix_discoverMore (types : TypeMap) (root : ObjectType) (known : List String) :
    [root.name] <+: types.discoverMore root known := by
  obtain ⟨more, h⟩ := dropRepeats_cons root.name (known.flatMap (types.mentionsFrom root))
  exact ⟨more, h.symm⟩

theorem discoveredWithin_prefix_succ (types : TypeMap) (root : ObjectType) (rounds : Nat) :
    types.discoveredWithin root rounds <+: types.discoveredWithin root (rounds + 1) := by
  induction rounds with
  | zero => exact root_prefix_discoverMore types root [root.name]
  | succ rounds ih =>
    rw [discoveredWithin_succ types root rounds, discoveredWithin_succ types root (rounds + 1)]
    exact discoverMore_prefix ih

theorem nodup_discoveredWithin (types : TypeMap) (root : ObjectType) (rounds : Nat) :
    (types.discoveredWithin root rounds).Nodup := by
  cases rounds with
  | zero => exact List.nodup_cons.mpr ⟨List.not_mem_nil, List.nodup_nil⟩
  | succ rounds =>
    rw [discoveredWithin_succ]
    exact nodup_dropRepeats _

theorem mem_mentionsFrom_iff (ha : types.Acyclic) {n k : String} :
    k ∈ types.mentionsFrom root n ↔ types.Edge root n k := by
  rw [mentionsFrom, Edge]
  cases types.objectFrom root n with
  | none => simp
  | some o =>
    simp only [Option.map_some, Option.getD_some, Option.some.injEq, exists_eq_left']
    exact mem_mentions_iff (fun _ _ => ha.grounded _)

theorem Reaches.get? {n : String} (h : types.Reaches root n) :
    n = root.name ∨ ∃ o, types.get? n = some (.object o) := by
  rcases Relation.ReflTransGen.cases_tail h with rfl | ⟨k, -, o, -, f, -, hleads⟩
  · exact Or.inl rfl
  · exact Or.inr hleads.get?

theorem reaches_of_mem_discoveredWithin (ha : types.Acyclic) {rounds : Nat} {n : String}
    (h : n ∈ types.discoveredWithin root rounds) : types.Reaches root n := by
  induction rounds generalizing n with
  | zero =>
    rw [List.mem_singleton.mp h]
    exact Relation.ReflTransGen.refl
  | succ rounds ih =>
    rw [discoveredWithin_succ, discoverMore, mem_dropRepeats] at h
    rcases List.mem_cons.mp h with rfl | h
    · exact Relation.ReflTransGen.refl
    · obtain ⟨k, hk, hn⟩ := List.mem_flatMap.mp h
      exact (ih hk).tail ((mem_mentionsFrom_iff ha).mp hn)

theorem length_discoveredWithin_le (hl : types.Lawful) (ha : types.Acyclic) (root : ObjectType)
    (rounds : Nat) :
    (types.discoveredWithin root rounds).length ≤ types.objects.length + 1 := by
  have hsub : ∀ n ∈ types.discoveredWithin root rounds,
      n ∈ root.name :: types.objects.map ObjectType.name := by
    intro n hn
    rcases (reaches_of_mem_discoveredWithin ha hn).get? with rfl | ⟨o, ho⟩
    · exact List.mem_cons_self
    · apply List.mem_cons_of_mem
      rw [← hl.object_name ho]
      exact List.mem_map_of_mem (hl.mem_objects_of_get? ho)
  have hle := ((nodup_discoveredWithin types root rounds).subperm hsub).length_le
  rwa [List.length_cons, List.length_map] at hle

/-- A round adds nothing, or every round so far added something. -/
theorem discoveredWithin_fixed_or_long (types : TypeMap) (root : ObjectType) (rounds : Nat) :
    types.discoverMore root (types.discoveredWithin root rounds) =
        types.discoveredWithin root rounds ∨
      rounds < (types.discoveredWithin root rounds).length := by
  induction rounds with
  | zero => exact Or.inr Nat.one_pos
  | succ rounds ih =>
    rw [discoveredWithin_succ]
    rcases ih with hfixed | hlong
    · left
      rw [hfixed, hfixed]
    · have hprefix := discoveredWithin_prefix_succ types root rounds
      rw [discoveredWithin_succ] at hprefix
      by_cases hlength : (types.discoveredWithin root rounds).length =
          (types.discoverMore root (types.discoveredWithin root rounds)).length
      · left
        rw [← hprefix.eq_of_length hlength, ← hprefix.eq_of_length hlength]
      · right
        have := hprefix.length_le
        omega

theorem discoveryOrder_eq (hl : types.Lawful) (ha : types.Acyclic) (root : ObjectType) :
    types.discoverMore root (types.discoveryOrder root) = types.discoveryOrder root := by
  rcases discoveredWithin_fixed_or_long types root (types.objects.length + 1) with h | h
  · exact h
  · have := length_discoveredWithin_le hl ha root (types.objects.length + 1)
    omega

theorem mem_discoveryOrder_iff (hl : types.Lawful) (ha : types.Acyclic) (n : String) :
    n ∈ types.discoveryOrder root ↔ types.Reaches root n := by
  constructor
  · exact reaches_of_mem_discoveredWithin ha
  · intro h
    induction h with
    | refl =>
      rw [← discoveryOrder_eq hl ha, discoverMore, mem_dropRepeats]
      exact List.mem_cons_self
    | tail _ hstep ih =>
      rw [← discoveryOrder_eq hl ha, discoverMore, mem_dropRepeats]
      apply List.mem_cons_of_mem
      exact List.mem_flatMap.mpr ⟨_, ih, (mem_mentionsFrom_iff ha).mpr hstep⟩

theorem discoveredWithin_prefix {known : List String} (h : types.discoverMore root known = known)
    (rounds : Nat) : types.discoveredWithin root rounds <+: known := by
  induction rounds with
  | zero => exact h ▸ root_prefix_discoverMore types root known
  | succ rounds ih =>
    rw [discoveredWithin_succ, ← h]
    exact discoverMore_prefix ih

end TypeMap

namespace Converter

variable {c : Converter} {depth : Nat} {root : ObjectType} {q : Progress}

theorem references_prefix_discoveryOrder (hl : c.types.Lawful) (ha : c.types.Acyclic)
    (hrun : Relation.ReflTransGen (c.Advances depth) ⟨References.seeded root, []⟩ q) :
    Members.names q.references <+: c.types.discoveryOrder root := by
  induction hrun with
  | refl =>
    rw [← TypeMap.discoveryOrder_eq hl ha]
    exact TypeMap.root_prefix_discoverMore c.types root _
  | tail hrun hstep ih =>
    rename_i q r
    have hq := (found_seeded c depth root).run hl hrun
    have hr := hq.advances hl hstep
    obtain ⟨n, o, s, hnext, -, rfl⟩ := hstep
    -- What has a definition now was a reference before.
    have hdefined : Members.names (q.definitions.put o.name s) <+: Members.names q.references := by
      obtain rfl : o.name = n := (hq.stored _ (List.mem_of_getElem? hnext)).2
      obtain ⟨rest, hrest⟩ := hq.references_eq hnext
      rw [Members.names_put, if_neg (hq.next_not_mem hnext), hrest]
      exact ⟨rest, List.append_assoc _ _ _⟩
    rw [hr.order, ← TypeMap.discoveryOrder_eq hl ha]
    exact TypeMap.discoverMore_prefix (hdefined.trans ih)

/-- What is defined in the end is all that the root reaches, in order. -/
theorem names_definitions_eq_discoveryOrder (hl : c.types.Lawful) (ha : c.types.Acyclic)
    (hrun : Relation.ReflTransGen (c.Advances depth) ⟨References.seeded root, []⟩ q)
    (hdone : Finished q) : Members.names q.definitions = c.types.discoveryOrder root := by
  have hq := (found_seeded c depth root).run hl hrun
  have hnames := hq.names_eq hdone
  have hclosed : c.types.discoverMore root (Members.names q.definitions) =
      Members.names q.definitions := by
    rw [TypeMap.discoverMore, ← hq.order, hnames]
  have hle := references_prefix_discoveryOrder hl ha hrun
  rw [← hnames] at hle
  exact hle.eq_of_length_le (TypeMap.discoveredWithin_prefix hclosed _).length_le

end Converter

end GraphShape
