import GraphShape.Proofs.SettingReading
import GraphShape.Settings.Loading

/-!
# Environment over file over default

The tree of the environment is joined with that of the file before anything is read. The key fact is
that the join decides setting by setting what is found: what the environment has, and otherwise what
the file has. A group of the file that is an array counts only where the environment has nothing at
the group, and then gives its settings by their places.
-/

namespace GraphShape

open SettingTree

/-- At every path the first tree's value wins, unless both have a table there. -/
structure SettingTree.Overlay (first second joined : SettingTree) : Prop where
  value : ∀ path v, first.under? path = some v → ¬ v.IsTable → joined.under? path = some v
  hidden : ∀ path, first.Blocks path → joined.under? path = none
  lone : ∀ path xs, first.under? path = some (table xs) →
    (∀ ys, second.under? path ≠ some (table ys)) → joined.under? path = some (table xs)
  both : ∀ path xs ys, first.under? path = some (table xs) →
    second.under? path = some (table ys) → ∃ zs, joined.under? path = some (table zs)
  other : ∀ path, first.under? path = none → ¬ first.Blocks path →
    joined.under? path = second.under? path

theorem SettingTree.overlay_join (first second : SettingTree) :
    Overlay first second (first.join second) where
  value path v hv htable := by
    rw [under?_join_of_some hv, joinValue_of_not_table htable]
  hidden path h := under?_of_blocks (blocks_join_of_blocks h second)
  lone path xs hxs hys := by
    rw [under?_join_of_some hxs]
    cases hy : second.under? path with
    | none => rw [joinValue]
    | some y =>
      rw [joinValue, join_of_second_not_table]
      intro htable
      obtain ⟨ys, rfl⟩ := exists_table htable
      exact hys ys hy
  both path xs ys hxs hys := by
    rw [under?_join_of_some hxs, hys, joinValue, join]
    exact ⟨_, rfl⟩
  other path hnone hfree := under?_join_of_none hnone hfree

/-! ## What is found for a setting -/

namespace Slot

/-- What the file has for a setting: what its path leads to, or, where the environment has nothing
at its group and the file has an array there, the item in its place. -/
def fromFile? (x : Slot) (environment file : SettingTree) : Option SettingTree :=
  if (environment.under? x.path.dropLast).isNone then x.found? file else file.under? x.path

/-- What is found in the joined tree is decided by the environment where it has something at the
setting's path or in front of it, and by the file elsewhere. -/
structure DecidedBy (x : Slot) (environment file joined : SettingTree) : Prop where
  value : ∀ v, environment.under? x.path = some v → ¬ v.IsTable → x.found? joined = some v
  table : ∀ v, environment.under? x.path = some v → v.IsTable →
    x.found? joined = some (joinValue v (file.under? x.path))
  hidden : environment.Blocks x.path → x.found? joined = x.found? environment
  other : environment.under? x.path = none → ¬ environment.Blocks x.path →
    x.found? joined = x.fromFile? environment file

theorem shape {x : Slot} (hx : x ∈ Config.slots) :
    (x.index = none ∧ x.path = [x.setting.name]) ∨
      ∃ group i, x.index = some i ∧ x.path = [group, x.setting.name] := by
  obtain ⟨e, -, hxe⟩ := List.mem_flatMap.mp hx
  cases e with
  | setting s =>
    obtain rfl := List.mem_singleton.mp hxe
    exact .inl ⟨rfl, rfl⟩
  | group name description g =>
    obtain ⟨m, -, rfl⟩ := List.mem_map.mp hxe
    exact .inr ⟨name, m.2, rfl, rfl⟩

theorem found?_alone {x : Slot} (h : x.index = none) (tree : SettingTree) :
    x.found? tree = tree.under? x.path := by
  rw [found?, h]

theorem found?_grouped {x : Slot} {group : String} {i : Nat} (hi : x.index = some i)
    (hpath : x.path = [group, x.setting.name]) (tree : SettingTree) :
    x.found? tree = (tree.under? [group]).bind (part? x.setting.name i) := by
  simp only [found?, hi, hpath, List.dropLast_cons_cons, List.dropLast_singleton]

theorem found?_of_table {x : Slot} {group : String} {i : Nat} (hi : x.index = some i)
    (hpath : x.path = [group, x.setting.name]) {tree t : SettingTree}
    (ht : tree.under? [group] = some t) (htable : t.IsTable) :
    x.found? tree = tree.under? x.path := by
  obtain ⟨entries, rfl⟩ := exists_table htable
  have hpair : tree.under? x.path = (tree.under? [group]).bind fun u => u.under? [x.setting.name] := by
    rw [hpath, ← under?_append]
    rfl
  rw [found?_grouped hi hpath, hpair, ht]
  rfl

theorem isTable_of_under?_pair {tree v : SettingTree} {group name : String}
    (h : tree.under? [group, name] = some v) : ∃ t, tree.under? [group] = some t ∧ t.IsTable := by
  rw [show [group, name] = [group] ++ [name] from rfl, under?_append] at h
  obtain ⟨t, ht, hv⟩ := Option.bind_eq_some_iff.mp h
  refine ⟨t, ht, ?_⟩
  by_contra htable
  rw [under?_cons_of_not_table htable] at hv
  cases hv

theorem not_blocks_single {tree : SettingTree} (h : tree.IsTable) (name : String) :
    ¬ tree.Blocks [name] := by
  obtain ⟨entries, rfl⟩ := exists_table h
  rw [blocks_table_cons_iff]
  rintro ⟨t, -, hblocks⟩
  exact not_blocks_nil t hblocks

theorem blocks_pair_iff {tree : SettingTree} (h : tree.IsTable) (group name : String) :
    tree.Blocks [group, name] ↔ ∃ t, tree.under? [group] = some t ∧ ¬ t.IsTable := by
  obtain ⟨entries, rfl⟩ := exists_table h
  rw [blocks_table_cons_iff, under?_name]
  refine exists_congr fun t => and_congr_right fun _ => ?_
  constructor
  · intro hblocks htable
    exact not_blocks_single htable name hblocks
  · exact fun htable => blocks_cons_of_not_table htable name []

section Join

variable {x : Slot} {environment file : SettingTree}

theorem found?_join_of_some (hx : x ∈ Config.slots) {v : SettingTree}
    (hv : environment.under? x.path = some v) :
    x.found? (environment.join file) = some (joinValue v (file.under? x.path)) := by
  rw [← under?_join_of_some hv]
  rcases shape hx with ⟨hi, -⟩ | ⟨group, i, hi, hpath⟩
  · exact found?_alone hi _
  · obtain ⟨t, ht, htable⟩ := isTable_of_under?_pair (hpath ▸ hv)
    exact found?_of_table hi hpath (under?_join_of_some ht) (isTable_joinValue htable _)

theorem found?_join_of_blocks (hx : x ∈ Config.slots) (htree : environment.IsTable)
    (h : environment.Blocks x.path) :
    x.found? (environment.join file) = x.found? environment := by
  rcases shape hx with ⟨hi, hpath⟩ | ⟨group, i, hi, hpath⟩
  · exact absurd (hpath ▸ h) (not_blocks_single htree _)
  · obtain ⟨t, ht, htable⟩ := (blocks_pair_iff htree group _).mp (hpath ▸ h)
    rw [found?_grouped hi hpath, found?_grouped hi hpath, ht,
      (overlay_join environment file).value [group] t ht htable]

theorem found?_join_of_none (hx : x ∈ Config.slots) (htree : environment.IsTable)
    (hnone : environment.under? x.path = none) (hfree : ¬ environment.Blocks x.path) :
    x.found? (environment.join file) = x.fromFile? environment file := by
  rcases shape hx with ⟨hi, hpath⟩ | ⟨group, i, hi, hpath⟩
  · rw [found?_alone hi, under?_join_of_none hnone hfree, fromFile?, hpath]
    rfl
  · have hgroup : x.path.dropLast = [group] := by rw [hpath]; rfl
    rw [fromFile?, hgroup]
    cases ht : environment.under? [group] with
    | none =>
      rw [found?_grouped hi hpath, found?_grouped hi hpath,
        under?_join_of_none ht (not_blocks_single htree group)]
      rfl
    | some t =>
      have htable : t.IsTable := by
        by_contra htable
        exact hfree (hpath ▸ (blocks_pair_iff htree group _).mpr ⟨t, ht, htable⟩)
      rw [found?_of_table hi hpath (under?_join_of_some ht) (isTable_joinValue htable _),
        under?_join_of_none hnone hfree]
      rfl

theorem decidedBy_join (hx : x ∈ Config.slots) (htree : environment.IsTable) :
    x.DecidedBy environment file (environment.join file) where
  value v hv htable := by
    rw [found?_join_of_some hx hv, joinValue_of_not_table htable]
  table v hv _ := found?_join_of_some hx hv
  hidden := found?_join_of_blocks hx htree
  other := found?_join_of_none hx htree

end Join

end Slot

/-! ## Files that say the same -/

/-- Two files have the same for every setting that the environment has no value for, and the same
for a group that the environment has nothing for, when it is no table. -/
def Config.SameBeside (environment file other : SettingTree) : Prop :=
  (∀ x ∈ Config.slots, ¬ environment.Blocks x.path →
    (∀ v, environment.under? x.path = some v → v.IsTable) →
      file.under? x.path = other.under? x.path) ∧
  ∀ name description g, Entry.group name description g ∈ Config.entries →
    environment.under? [name] = none →
      plainOnly (file.under? [name]) = plainOnly (other.under? [name])

theorem Config.sameSettings_join {environment file other : SettingTree}
    (htree : environment.IsTable) (h : Config.SameBeside environment file other) :
    Config.SameSettings (environment.join file) (environment.join other) := by
  constructor
  · intro x hx
    cases hv : environment.under? x.path with
    | none =>
      by_cases hblocks : environment.Blocks x.path
      · rw [(overlay_join _ _).hidden _ hblocks, (overlay_join _ _).hidden _ hblocks]
      · rw [under?_join_of_none hv hblocks, under?_join_of_none hv hblocks]
        exact h.1 x hx hblocks (by simp [hv])
    | some v =>
      rw [under?_join_of_some hv, under?_join_of_some hv]
      by_cases htable : v.IsTable
      · have hfree : ¬ environment.Blocks x.path := fun hblocks => by
          rw [under?_of_blocks hblocks] at hv
          cases hv
        rw [h.1 x hx hfree fun w hw => by cases hv.symm.trans hw; exact htable]
      · rw [joinValue_of_not_table htable, joinValue_of_not_table htable]
  · intro name description g hg
    cases hv : environment.under? [name] with
    | none =>
      have hfree := Slot.not_blocks_single htree name
      rw [under?_join_of_none hv hfree, under?_join_of_none hv hfree]
      exact h.2 name description g hg hv
    | some v =>
      rw [under?_join_of_some hv, under?_join_of_some hv]
      by_cases htable : v.IsTable
      · rw [plainOnly_of_table (isTable_joinValue htable _),
          plainOnly_of_table (isTable_joinValue htable _)]
      · rw [joinValue_of_not_table htable, joinValue_of_not_table htable]

/-! ## Loading -/

namespace Config

section Loading

variable {environment : Environment} {text : String} {file : SettingTree}

theorem load_of_ofYaml (h : SettingTree.ofYaml? text = some file) :
    load environment (some text) = (Config.ofTree (sources environment file)).mapError .setting := by
  rw [load, Option.getD_some, h]

theorem exists_sources (environment : Environment) (h : SettingTree.ofYaml? text = some file) :
    ∃ es, sources environment file = table es ∧ (table es).Tidy := by
  obtain ⟨-, hfile⟩ := SettingTree.ofYaml?_eq_some h
  have htidy := (tidy_ofEnvironment environment).join hfile
  have htable := isTable_joinValue (isTable_ofEnvironment environment) (some file)
  rw [joinValue] at htable
  obtain ⟨es, hes⟩ := exists_table htable
  exact ⟨es, hes, hes ▸ htidy⟩

theorem ok_of_mapError {ε ε' α : Type} {x : Except ε α} {f : ε → ε'} {a : α}
    (h : x.mapError f = .ok a) : x = .ok a := by
  cases x with
  | error e => cases h
  | ok b =>
    cases h
    rfl

theorem error_of_mapError {ε ε' α : Type} {x : Except ε α} {f : ε → ε'} {e' : ε'}
    (h : x.mapError f = .error e') : ∃ e, x = .error e ∧ e' = f e := by
  cases x with
  | error e =>
    cases h
    exact ⟨e, rfl, rfl⟩
  | ok b => cases h

theorem value_of_load (h : SettingTree.ofYaml? text = some file) {c : Config}
    (hload : load environment (some text) = .ok c) {x : Slot} (hx : x ∈ slots) :
    (∀ v, x.found? (sources environment file) = some v →
      x.setting.kind.ofTree v = .ok (x.setting.value c)) ∧
      (x.found? (sources environment file) = none →
        x.setting.value c = x.setting.value standard) := by
  obtain ⟨es, hes, htidy⟩ := exists_sources environment h
  rw [load_of_ofYaml h, hes] at hload
  rw [hes]
  exact value_of_ofTree htidy (ok_of_mapError hload) hx

theorem problem_of_load (h : SettingTree.ofYaml? text = some file) {p : Config.Problem}
    (hload : load environment (some text) = .error p) : ∃ q, p = .setting q ∧
      ((∃ x ∈ slots, x.Fails (sources environment file) q) ∨
        Refuses (sources environment file) q) := by
  obtain ⟨es, hes, htidy⟩ := exists_sources environment h
  rw [load_of_ofYaml h] at hload
  obtain ⟨q, hq, rfl⟩ := error_of_mapError hload
  rw [hes] at hq ⊢
  exact ⟨q, rfl, problem_of_ofTree htidy hq⟩

theorem load_congr (h : SettingTree.ofYaml? text = some file) {text' : String} {other : SettingTree}
    (h' : SettingTree.ofYaml? text' = some other)
    (hsame : SameBeside (ofEnvironment environment) file other) :
    load environment (some text) = load environment (some text') := by
  obtain ⟨es, hes, htidy⟩ := exists_sources environment h
  obtain ⟨es', hes', htidy'⟩ := exists_sources environment h'
  have hjoined := sameSettings_join (isTable_ofEnvironment environment) hsame
  change SameSettings (sources environment file) (sources environment other) at hjoined
  rw [hes, hes'] at hjoined
  rw [load_of_ofYaml h, load_of_ofYaml h', hes, hes', ofTree_congr htidy htidy' hjoined]

theorem load_none (environment : Environment) : load environment none =
    (Config.ofTree (ofEnvironment environment)).mapError .setting := by
  have hempty : SettingTree.ofYaml? "" = some (table []) := by rfl
  rw [load, Option.getD_none, hempty]
  simp only [sources, join_empty]

theorem load_of_empty (h : SettingTree.ofYaml? text = some (table [])) :
    load environment (some text) = load environment none := by
  rw [load_of_ofYaml h, load_none, sources, join_empty]

end Loading

/-- **Precedence.** The environment decides before the file, and the file before the defaults. -/
theorem environment_over_file_over_default {environment : Environment} {text : String}
    {file : SettingTree} (h : SettingTree.ofYaml? text = some file) :
    load environment (some text) =
      (Config.ofTree (sources environment file)).mapError .setting ∧
    Overlay (ofEnvironment environment) file (sources environment file) ∧
    (∀ x ∈ slots, x.DecidedBy (ofEnvironment environment) file (sources environment file)) ∧
    -- A configuration has what is found, and otherwise the defaults.
    (∀ c, load environment (some text) = .ok c → ∀ x ∈ slots,
      (∀ v, x.found? (sources environment file) = some v →
        x.setting.kind.ofTree v = .ok (x.setting.value c)) ∧
      (x.found? (sources environment file) = none →
        x.setting.value c = x.setting.value standard)) ∧
    -- A problem is about something that is found.
    (∀ p, load environment (some text) = .error p → ∃ q, p = .setting q ∧
      ((∃ x ∈ slots, x.Fails (sources environment file) q) ∨
        Refuses (sources environment file) q)) ∧
    -- The rest of the file does not matter.
    (∀ text' other, SettingTree.ofYaml? text' = some other →
      SameBeside (ofEnvironment environment) file other →
        load environment (some text) = load environment (some text')) ∧
    load environment none = (Config.ofTree (ofEnvironment environment)).mapError .setting ∧
    (file = table [] → load environment (some text) = load environment none) ∧
    (Distinct environment → ∀ v ∈ environment, ∀ path, pathOf? v.1 = some path →
      (ofEnvironment environment).under? path = some (ofVariable v.2)) := by
  refine ⟨load_of_ofYaml h, overlay_join _ file, ?_, ?_, ?_, ?_, load_none environment, ?_, ?_⟩
  · exact fun x hx => Slot.decidedBy_join hx (isTable_ofEnvironment environment)
  · exact fun c hload x hx => value_of_load h hload hx
  · exact fun p hload => problem_of_load h hload
  · exact fun text' other h' hsame => load_congr h h' hsame
  · rintro rfl
    exact load_of_empty h
  · exact fun hdistinct v hv path hpath => under?_ofEnvironment hdistinct hv hpath

/-! ## Two files -/

theorem exists_of_any {value : Option SettingTree} {test : SettingTree → Bool}
    (h : value.any test = true) : ∃ t, value = some t ∧ test t = true := by
  cases value with
  | none => cases h
  | some t => exact ⟨t, rfl, h⟩

theorem ofEnvironment_single {name text : String} {path : List String}
    (h : pathOf? name = some path) :
    ofEnvironment [(name, text)] = nest path (ofVariable text) := by
  rw [ofEnvironment_eq, List.foldl_cons, List.foldl_nil, record, h]
  exact join_empty _

/-- The root type is a number. -/
def numberedRoot : String := "root_type: 5"

def isNumberedRoot : SettingTree → Bool
  | table [(name, unsigned n)] => name = "root_type" ∧ n = 5
  | _ => false

theorem ofYaml?_numberedRoot :
    SettingTree.ofYaml? numberedRoot = some (table [("root_type", unsigned 5)]) := by
  have hread : (SettingTree.ofYaml? numberedRoot).any isNumberedRoot = true := by decide +kernel
  obtain ⟨file, hfile, hshape⟩ := exists_of_any hread
  unfold isNumberedRoot at hshape
  split at hshape
  · obtain ⟨rfl, rfl⟩ := of_decide_eq_true hshape
    exact hfile
  · cases hshape

theorem environment_over_file_over_default_root :
    ∃ c, load [("GRAPHQL_JSON_SCHEMA_ROOT_TYPE", "Query")] (some numberedRoot) = .ok c ∧
      Kind.optionalText.ofTree (ofVariable "Query") = .ok c.rootType := by
  have hpath : pathOf? "GRAPHQL_JSON_SCHEMA_ROOT_TYPE" = some ["root_type"] := by decide +kernel
  have hjoined : sources [("GRAPHQL_JSON_SCHEMA_ROOT_TYPE", "Query")]
      (table [("root_type", unsigned 5)]) = table [("root_type", ofVariable "Query")] := by
    have hown : (ofVariable "Query").join (unsigned 5) = ofVariable "Query" :=
      join_of_second_not_table _ id
    rw [sources, ofEnvironment_single hpath]
    simp [nest, join, joinEntries, joinValue, Members.get?, Members.has, hown]
  obtain ⟨hload, -, hdecided, hread, -, -, -, -, hvariables⟩ :=
    @environment_over_file_over_default [("GRAPHQL_JSON_SCHEMA_ROOT_TYPE", "Query")] _ _
      ofYaml?_numberedRoot
  have hconfig : Config.ofTree (table [("root_type", ofVariable "Query")]) =
      .ok { standard with rootType := some "Query" } := by
    rw [ofTree_table (by decide)]
    decide +kernel
  rw [hjoined, hconfig] at hload
  have hslot : slots[9] ∈ slots := List.getElem_mem _
  have hvalue := hvariables (List.pairwise_singleton _ _) _ List.mem_cons_self _ hpath
  refine ⟨_, hload, (hread _ hload _ hslot).1 _ ((hdecided _ hslot).value _ hvalue ?_)⟩
  decide +kernel

/-- A false switch, alone in an array. -/
def offInArray : String := "collection_models: [false]"

def isOffInArray : SettingTree → Bool
  | table [(name, array [.bool on])] => name = "collection_models" ∧ on = false
  | _ => false

theorem ofYaml?_offInArray :
    SettingTree.ofYaml? offInArray = some (table [("collection_models", array [.bool false])]) := by
  have hread : (SettingTree.ofYaml? offInArray).any isOffInArray = true := by decide +kernel
  obtain ⟨file, hfile, hshape⟩ := exists_of_any hread
  unfold isOffInArray at hshape
  split at hshape
  · obtain ⟨rfl, rfl⟩ := of_decide_eq_true hshape
    exact hfile
  · cases hshape

/-- An array for a group assigns settings although nothing stands at their paths. -/
theorem arrays_assign_settings :
    ¬ ∀ environment text file c, SettingTree.ofYaml? text = some file →
      load environment (some text) = .ok c → ∀ x ∈ slots,
        (ofEnvironment environment).under? x.path = none →
          ¬ (ofEnvironment environment).Blocks x.path → file.under? x.path = none →
            x.setting.value c = x.setting.value standard := by
  intro hclaim
  have hjoined : sources [] (table [("collection_models", array [.bool false])]) =
      table [("collection_models", array [.bool false])] := by
    simp [sources, ofEnvironment, join, joinEntries, Members.has, Members.get?]
  have hload : load [] (some offInArray) =
      .ok { standard with collectionModels.enabled := false } := by
    rw [load_of_ofYaml ofYaml?_offInArray, hjoined, ofTree_table (by decide)]
    decide +kernel
  have hslot : slots[0] ∈ slots := List.getElem_mem _
  have hfree : ¬ (ofEnvironment []).Blocks ["collection_models", "enabled"] := by
    rw [Slot.blocks_pair_iff (isTable_ofEnvironment [])]
    rintro ⟨t, ht, -⟩
    cases ht
  have hdefault := hclaim [] offInArray _ _ ofYaml?_offInArray hload _ hslot rfl hfree rfl
  cases hdefault

end Config

end GraphShape
