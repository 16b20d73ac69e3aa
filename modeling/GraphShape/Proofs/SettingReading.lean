import GraphShape.Proofs.SettingOrder
import GraphShape.Proofs.SettingPaths

/-!
# What a tree says about a setting

A setting has a path, and a place in its group in case the group is an array. The key fact is that a
setting is only ever assigned by what the tree has for it, so a configuration that was read has for
each setting either that value or the default.
-/

namespace GraphShape

open SettingTree

/-- Where a setting is looked for. -/
structure Slot where
  path : List String
  /-- The place in the group. -/
  index : Option Nat
  setting : Setting

def Entry.slots : Entry → List Slot
  | .setting s => [⟨[s.name], none, s⟩]
  | .group name _ g => g.settings.zipIdx.map fun m => ⟨[name, m.1.name], some m.2, m.1⟩

/-- Every setting. -/
def Config.slots : List Slot := Config.entries.flatMap Entry.slots

/-- What a group has for the setting of a name and a place. -/
def SettingTree.part? (name : String) (index : Nat) : SettingTree → Option SettingTree
  | array items => items[index]?
  | tree => tree.under? [name]

/-- What a tree has for a setting: what its path leads to, or the item in its place where its group
is an array. -/
def Slot.found? (x : Slot) (tree : SettingTree) : Option SettingTree :=
  match x.index with
  | none => tree.under? x.path
  | some i => (tree.under? x.path.dropLast).bind (part? x.setting.name i)

theorem SettingTree.under?_name (entries : Members SettingTree) (name : String) :
    (table entries).under? [name] = Members.get? entries name := by
  rw [under?]
  cases Members.get? entries name <;> rfl

/-! ## Settings are independent -/

theorem value_assign : ∀ x ∈ Config.slots, ∀ v c,
    x.setting.value (x.setting.assign v c) = v := by
  simp [Config.slots, Config.entries, Entry.slots, Config.collectionModelsGroup,
    Config.loggingGroup, Config.outputGroup]

theorem value_assign_of_ne : ∀ x ∈ Config.slots, ∀ y ∈ Config.slots, x.path ≠ y.path →
    ∀ v c, y.setting.value (x.setting.assign v c) = y.setting.value c := by
  simp [Config.slots, Config.entries, Entry.slots, Config.collectionModelsGroup,
    Config.loggingGroup, Config.outputGroup]

theorem Setting.ofTree_ok {s : Setting} {tree : SettingTree} {c c' : Config}
    (h : s.ofTree tree c = .ok c') : ∃ v, s.kind.ofTree tree = .ok v ∧ c' = s.assign v c := by
  rw [Setting.ofTree] at h
  cases hread : s.kind.ofTree tree with
  | error p =>
    rw [hread] at h
    cases h
  | ok v =>
    rw [hread] at h
    cases h
    exact ⟨v, rfl, rfl⟩

theorem Setting.ofTree_error {s : Setting} {tree : SettingTree} {c : Config} {p : Problem}
    (h : s.ofTree tree c = .error p) : s.kind.ofTree tree = .error p := by
  rw [Setting.ofTree] at h
  cases hread : s.kind.ofTree tree with
  | error q =>
    rw [hread] at h
    cases h
    rfl
  | ok v =>
    rw [hread] at h
    cases h

theorem keeps_setting {x y : Slot} (hx : x ∈ Config.slots) (hy : y ∈ Config.slots)
    (h : x.path ≠ y.path) (label : String) (value : Option SettingTree) :
    Keeps y.setting.value (given label x.setting.ofTree value) := by
  refine Keeps.given (fun tree c c' hc => ?_) label value
  obtain ⟨v, -, rfl⟩ := Setting.ofTree_ok hc
  exact value_assign_of_ne x hx y hy h v c

theorem given_setting_ok {x : Slot} (hx : x ∈ Config.slots) {label : String}
    {value : Option SettingTree} {c c' : Config}
    (h : given label x.setting.ofTree value c = .ok c') :
    (∀ tree, value = some tree → x.setting.kind.ofTree tree = .ok (x.setting.value c')) ∧
      (value = none → c' = c) := by
  cases value with
  | none =>
    cases h
    simp
  | some tree =>
    obtain ⟨v, hv, rfl⟩ := Setting.ofTree_ok (inside_ok h)
    simp [hv, value_assign x hx]

/-! ## Groups -/

theorem nodup_of_append_cons {α : Type} {f : α → String} {before after : List α} {a : α}
    (h : ((before ++ a :: after).map f).Nodup) :
    (∀ b ∈ before, f b ≠ f a) ∧ ∀ b ∈ after, f b ≠ f a := by
  rw [List.map_append, List.map_cons, List.nodup_middle, List.nodup_cons, List.mem_append] at h
  refine ⟨fun b hb hba => h.1 (.inl ?_), fun b hb hba => h.1 (.inr ?_)⟩
  · exact hba ▸ List.mem_map_of_mem hb
  · exact hba ▸ List.mem_map_of_mem hb

/-- The settings of a group have different names, in order. -/
def SettingGroup.Ordered (g : SettingGroup) : Prop :=
  (g.settings.map Setting.name).Nodup ∧ (g.settings.map Setting.name).Pairwise (· ≤ ·)

theorem ordered_of_mem {name description : String} {g : SettingGroup}
    (h : Entry.group name description g ∈ Config.entries) : g.Ordered := by
  simp only [Config.entries, List.mem_cons, Entry.group.injEq, reduceCtorEq, false_or, or_false,
    List.not_mem_nil] at h
  rcases h with ⟨-, -, rfl⟩ | ⟨-, -, rfl⟩ | ⟨-, -, rfl⟩ <;> exact ⟨by decide, by decide⟩

/-- The name or the number under which a group holds a setting. -/
def labelIn (tree : SettingTree) (s : Setting) (i : Nat) : String :=
  match tree with
  | array _ => toString i
  | _ => s.name

/-- What is read from a group: each setting from its part. -/
def SettingGroup.acts (g : SettingGroup) (tree : SettingTree) : List Act :=
  g.settings.zipIdx.map fun m => given (labelIn tree m.1 m.2) m.1.ofTree (part? m.1.name m.2 tree)

def SettingTree.IsArray : SettingTree → Prop
  | array _ => True
  | _ => False

theorem assignInTurn_eq (k : Nat) (reads : List (SettingTree → Act)) (items : List SettingTree)
    (c : Config) : assignInTurn k reads items c =
      inTurn ((reads.zipIdx k).map fun m => given (toString m.2) m.1 items[m.2 - k]?) c := by
  induction reads generalizing k items c with
  | nil => rfl
  | cons read reads ih =>
    cases items with
    | nil =>
      refine (inTurn_eq_ok (fun act hact c => ?_) c).symm
      obtain ⟨m, -, rfl⟩ := List.mem_map.mp hact
      rfl
    | cons item items =>
      have hrest : (reads.zipIdx (k + 1)).map
          (fun m => given (toString m.2) m.1 (item :: items)[m.2 - k]?) =
          (reads.zipIdx (k + 1)).map
            fun m => given (toString m.2) m.1 items[m.2 - (k + 1)]? := by
        refine List.map_congr_left fun m hm => ?_
        have hle := (List.mem_zipIdx hm).1
        rw [show m.2 - k = m.2 - (k + 1) + 1 by omega, List.getElem?_cons_succ]
      rw [assignInTurn, List.zipIdx_cons, List.map_cons, hrest, inTurn_cons]
      simp only [Nat.sub_self, List.getElem?_cons_zero]
      refine bind_congr (m := Except Problem) fun c₁ => ?_
      exact ih (k + 1) items c₁

theorem SettingGroup.ofTree_array (g : SettingGroup) (items : List SettingTree) (c : Config) :
    g.ofTree (array items) c = inTurn (g.acts (array items)) c := by
  rw [SettingGroup.ofTree, assign, assignInTurn_eq, SettingGroup.acts, List.map_map,
    List.zipIdx_map, List.map_map]
  rfl

theorem SettingGroup.acts_table (g : SettingGroup) (entries : Members SettingTree) :
    g.acts (table entries) =
      g.settings.map fun s => given s.name s.ofTree (Members.get? entries s.name) := by
  conv_rhs => rw [← List.zipIdx_map_fst 0 g.settings, List.map_map]
  refine List.map_congr_left fun m _ => ?_
  simp only [labelIn, part?, under?_name, Function.comp]

theorem SettingGroup.ofTree_table {g : SettingGroup} (hg : g.Ordered) {entries : Members SettingTree}
    (h : (Members.names entries).Nodup) (c : Config) :
    g.ofTree (table entries) c = inTurn (g.acts (table entries)) c := by
  have hnames : Members.names (g.settings.map fun s => (s.name, s.ofTree)) =
      g.settings.map Setting.name := by
    rw [Members.names, List.map_map]
    rfl
  have hsorted : Ascending (g.settings.map fun s => (s.name, s.ofTree)) := by
    rw [Ascending, List.pairwise_map]
    exact List.pairwise_map.mp hg.2
  rw [SettingGroup.ofTree, assign, assignNamed_inOrder h (hnames ▸ hg.1) hsorted,
    SettingGroup.acts_table, List.map_map]
  rfl

theorem SettingGroup.ofTree_cases {name description : String} {g : SettingGroup}
    (hg : Entry.group name description g ∈ Config.entries) {tree : SettingTree} (h : tree.Tidy) :
    ((tree.IsTable ∨ tree.IsArray) ∧ ∀ c, g.ofTree tree c = inTurn (g.acts tree) c) ∨
      (¬ tree.IsTable ∧ ¬ tree.IsArray) ∧
        ∀ c, g.ofTree tree c = .error ⟨.wrongKind tree.found g.expected, []⟩ := by
  cases tree with
  | table entries =>
    exact .inl ⟨.inl trivial,
      g.ofTree_table (ordered_of_mem hg) ((tidy_table_iff entries).mp h).1⟩
  | array items => exact .inl ⟨.inr trivial, g.ofTree_array items⟩
  | _ => exact .inr ⟨⟨id, id⟩, fun _ => rfl⟩

/-! ## The whole -/

section Whole

variable {es : Members SettingTree}

/-- Each entry of the configuration is read from what the table has for it. -/
theorem Config.ofTree_table (h : (Members.names es).Nodup) :
    Config.ofTree (table es) = inTurn
      (Config.entries.map fun e => given e.name e.ofTree ((table es).under? [e.name]))
      Config.standard := by
  have hnames : Members.names (Config.entries.map fun e => (e.name, e.ofTree)) =
      Config.entries.map Entry.name := by
    rw [Members.names, List.map_map]
    rfl
  have hsorted : Ascending (Config.entries.map fun e => (e.name, e.ofTree)) := by
    rw [Ascending, List.pairwise_map]
    exact List.pairwise_map.mp (by decide : (Config.entries.map Entry.name).Pairwise (· ≤ ·))
  rw [Config.ofTree, assign, assignNamed_inOrder h (hnames ▸ by decide) hsorted, List.map_map]
  simp only [under?_name]
  rfl

theorem keeps_entry {e : Entry} (he : e ∈ Config.entries) {x : Slot} (hx : x ∈ Config.slots)
    (h : ∀ y ∈ e.slots, y.path ≠ x.path) {value : Option SettingTree}
    (hvalue : ∀ tree, value = some tree → tree.Tidy) :
    Keeps x.setting.value (given e.name e.ofTree value) := by
  have hslots : ∀ y ∈ e.slots, y ∈ Config.slots := fun y hy => List.mem_flatMap.mpr ⟨e, he, hy⟩
  cases value with
  | none => exact keeps_ok
  | some tree =>
    cases e with
    | setting s =>
      have hs : (⟨[s.name], none, s⟩ : Slot) ∈ (Entry.setting s).slots := List.mem_singleton.mpr rfl
      exact keeps_setting (hslots _ hs) hx (h _ hs) s.name (some tree)
    | group name description g =>
      refine Keeps.inside ?_ name
      rcases g.ofTree_cases he (hvalue tree rfl) with ⟨-, hread⟩ | ⟨-, hrefuse⟩
      · have hacts : (Entry.group name description g).ofTree tree = inTurn (g.acts tree) :=
          funext hread
        rw [hacts]
        refine Keeps.inTurn fun act hact => ?_
        obtain ⟨m, hm, rfl⟩ := List.mem_map.mp hact
        have hy : (⟨[name, m.1.name], some m.2, m.1⟩ : Slot) ∈
            (Entry.group name description g).slots := List.mem_map.mpr ⟨m, hm, rfl⟩
        exact keeps_setting (hslots _ hy) hx (h _ hy) _ _
      · have hacts : (Entry.group name description g).ofTree tree =
            fun _ => .error ⟨.wrongKind tree.found g.expected, []⟩ := funext hrefuse
        rw [hacts]
        exact keeps_error _

theorem head_of_mem_slots {e : Entry} {x : Slot} (h : x ∈ e.slots) :
    x.path.head? = some e.name := by
  cases e with
  | setting s =>
    rw [List.mem_singleton.mp h]
    rfl
  | group name description g =>
    obtain ⟨m, -, rfl⟩ := List.mem_map.mp h
    rfl

theorem acts_ok {name description : String} {g : SettingGroup}
    (hg : Entry.group name description g ∈ Config.entries) {tree : SettingTree}
    {m : Setting × Nat} (hm : m ∈ g.settings.zipIdx) {c c' : Config}
    (h : inTurn (g.acts tree) c = .ok c') :
    (∀ v, part? m.1.name m.2 tree = some v → m.1.kind.ofTree v = .ok (m.1.value c')) ∧
      (part? m.1.name m.2 tree = none → m.1.value c' = m.1.value c) := by
  have hslot : ∀ k ∈ g.settings.zipIdx, (⟨[name, k.1.name], some k.2, k.1⟩ : Slot) ∈ Config.slots :=
    fun k hk => List.mem_flatMap.mpr ⟨_, hg, List.mem_map.mpr ⟨k, hk, rfl⟩⟩
  have hnodup : (g.settings.zipIdx.map fun k => k.1.name).Nodup := by
    have hmap : (g.settings.zipIdx.map fun k => k.1.name) = g.settings.map Setting.name := by
      conv_rhs => rw [← List.zipIdx_map_fst 0 g.settings, List.map_map]
      rfl
    exact hmap ▸ (ordered_of_mem hg).1
  obtain ⟨before, after, hsplit⟩ := List.append_of_mem hm
  rw [hsplit] at hnodup
  obtain ⟨hbefore, hafter⟩ := nodup_of_append_cons hnodup
  have hkeeps : ∀ k ∈ g.settings.zipIdx, k.1.name ≠ m.1.name →
      Keeps m.1.value (given (labelIn tree k.1 k.2) k.1.ofTree (part? k.1.name k.2 tree)) :=
    fun k hk hne => keeps_setting (hslot k hk) (hslot m hm) (by simpa using hne) _ _
  rw [SettingGroup.acts, hsplit, List.map_append, List.map_cons] at h
  obtain ⟨c₁, c₂, hact, h₁, h₂⟩ := inTurn_ok_at (f := m.1.value) h
    (by
      intro act hact
      obtain ⟨k, hk, rfl⟩ := List.mem_map.mp hact
      exact hkeeps k (hsplit ▸ List.mem_append_left _ hk) (hbefore k hk))
    (by
      intro act hact
      obtain ⟨k, hk, rfl⟩ := List.mem_map.mp hact
      exact hkeeps k (hsplit ▸ List.mem_append_right _ (List.mem_cons_of_mem _ hk)) (hafter k hk))
  have hown := given_setting_ok (hslot m hm) hact
  refine ⟨fun v hv => ?_, fun hnone => ?_⟩
  · rw [h₂]
    exact hown.1 v hv
  · rw [h₂, hown.2 hnone, h₁]

theorem Config.value_of_ofTree (hes : (table es).Tidy) {c : Config}
    (h : Config.ofTree (table es) = .ok c) {x : Slot} (hx : x ∈ Config.slots) :
    (∀ v, x.found? (table es) = some v → x.setting.kind.ofTree v = .ok (x.setting.value c)) ∧
      (x.found? (table es) = none → x.setting.value c = x.setting.value Config.standard) := by
  obtain ⟨e, he, hxe⟩ := List.mem_flatMap.mp hx
  obtain ⟨before, after, hsplit⟩ := List.append_of_mem he
  have hnodup : ((before ++ e :: after).map Entry.name).Nodup := hsplit ▸ by decide
  obtain ⟨hbefore, hafter⟩ := nodup_of_append_cons hnodup
  have hkeeps : ∀ e' ∈ Config.entries, e'.name ≠ e.name →
      Keeps x.setting.value (given e'.name e'.ofTree ((table es).under? [e'.name])) := by
    refine fun e' he' hne => keeps_entry he' hx (fun y hy hpath => hne ?_) fun tree => hes.under
    have hheads := (head_of_mem_slots hy).symm.trans (hpath ▸ head_of_mem_slots hxe)
    exact Option.some.inj hheads
  rw [Config.ofTree_table ((tidy_table_iff es).mp hes).1, hsplit, List.map_append,
    List.map_cons] at h
  obtain ⟨c₁, c₂, hact, h₁, h₂⟩ := inTurn_ok_at (f := x.setting.value) h
    (by
      intro act hact
      obtain ⟨k, hk, rfl⟩ := List.mem_map.mp hact
      exact hkeeps k (hsplit ▸ List.mem_append_left _ hk) (hbefore k hk))
    (by
      intro act hact
      obtain ⟨k, hk, rfl⟩ := List.mem_map.mp hact
      exact hkeeps k (hsplit ▸ List.mem_append_right _ (List.mem_cons_of_mem _ hk)) (hafter k hk))
  rw [h₂, ← h₁]
  cases e with
  | setting s =>
    obtain rfl := List.mem_singleton.mp hxe
    obtain ⟨hsome, hnone⟩ := given_setting_ok hx hact
    exact ⟨hsome, fun hfound => by rw [hnone hfound]⟩
  | group name description g =>
    obtain ⟨m, hm, rfl⟩ := List.mem_map.mp hxe
    change (∀ v, ((table es).under? [name]).bind (part? m.1.name m.2) = some v → _) ∧
      (((table es).under? [name]).bind (part? m.1.name m.2) = none → _)
    cases hgroup : (table es).under? [name] with
    | none =>
      change given name _ ((table es).under? [name]) c₁ = _ at hact
      rw [hgroup] at hact
      cases hact
      simp
    | some tree =>
      change given name _ ((table es).under? [name]) c₁ = _ at hact
      rw [hgroup] at hact
      have hread := inside_ok hact
      rcases g.ofTree_cases he (hes.under hgroup) with ⟨-, hacts⟩ | ⟨-, hrefuse⟩
      · exact acts_ok he hm ((hacts c₁).symm.trans hread)
      · cases (hrefuse c₁).symm.trans hread

/-- The path at which what a tree has for a setting stands. -/
def Slot.foundAt (x : Slot) (tree : SettingTree) : List String :=
  match x.index, tree.under? x.path.dropLast with
  | some i, some (array _) => x.path.dropLast ++ [toString i]
  | _, _ => x.path

/-- A problem with what the tree has for a setting, at its path. -/
def Slot.Fails (x : Slot) (tree : SettingTree) (p : Problem) : Prop :=
  ∃ v q, x.found? tree = some v ∧ x.setting.kind.ofTree v = .error q ∧
    p = ⟨q.fault, x.foundAt tree ++ q.path⟩

/-- A group that the tree has neither a table nor an array for. -/
def Config.Refuses (tree : SettingTree) (p : Problem) : Prop :=
  ∃ name description g group, Entry.group name description g ∈ Config.entries ∧
    tree.under? [name] = some group ∧ ¬ group.IsTable ∧ ¬ group.IsArray ∧
    p = ⟨.wrongKind group.found g.expected, [name]⟩

theorem given_setting_error {s : Setting} {label : String} {value : Option SettingTree} {c : Config}
    {p : Problem} (h : given label s.ofTree value c = .error p) :
    ∃ v q, value = some v ∧ s.kind.ofTree v = .error q ∧ p = q.under label := by
  cases value with
  | none => cases h
  | some v =>
    obtain ⟨q, hq, rfl⟩ := inside_error h
    exact ⟨v, q, rfl, Setting.ofTree_error hq, rfl⟩

theorem Config.problem_of_ofTree (hes : (table es).Tidy) {p : Problem}
    (h : Config.ofTree (table es) = .error p) :
    (∃ x ∈ Config.slots, x.Fails (table es) p) ∨ Config.Refuses (table es) p := by
  rw [Config.ofTree_table ((tidy_table_iff es).mp hes).1] at h
  obtain ⟨act, hact, c₁, hp⟩ := inTurn_error h
  obtain ⟨e, he, rfl⟩ := List.mem_map.mp hact
  cases e with
  | setting s =>
    obtain ⟨v, q, hv, hq, rfl⟩ := given_setting_error hp
    refine .inl ⟨⟨[s.name], none, s⟩, ?_, v, q, hv, hq, rfl⟩
    exact List.mem_flatMap.mpr ⟨_, he, List.mem_singleton.mpr rfl⟩
  | group name description g =>
    change given name _ ((table es).under? [name]) c₁ = _ at hp
    cases hgroup : (table es).under? [name] with
    | none =>
      rw [hgroup] at hp
      cases hp
    | some tree =>
      rw [hgroup] at hp
      obtain ⟨q, hq, rfl⟩ := inside_error hp
      rcases g.ofTree_cases he (hes.under hgroup) with ⟨-, hacts⟩ | ⟨hneither, hrefuse⟩
      · obtain ⟨act, hact, c₂, hq⟩ := inTurn_error ((hacts c₁).symm.trans hq)
        obtain ⟨m, hm, rfl⟩ := List.mem_map.mp hact
        obtain ⟨v, r, hv, hr, rfl⟩ := given_setting_error hq
        refine .inl ⟨⟨[name, m.1.name], some m.2, m.1⟩, ?_, v, r, ?_, hr, ?_⟩
        · exact List.mem_flatMap.mpr ⟨_, he, List.mem_map.mpr ⟨m, hm, rfl⟩⟩
        · change ((table es).under? [name]).bind _ = _
          rw [hgroup]
          exact hv
        · rw [Slot.foundAt]
          simp only [List.dropLast_cons_cons, List.dropLast_singleton, hgroup]
          cases tree <;> rfl
      · cases (hrefuse c₁).symm.trans hq
        exact .inr ⟨name, description, g, tree, he, hgroup, hneither.1, hneither.2, rfl⟩

/-- What is there and no table. -/
def plainOnly (value : Option SettingTree) : Option SettingTree :=
  value.filter fun t => !decide t.IsTable

/-- Two trees have the same for every setting, and the same for a group that is no table. -/
def Config.SameSettings (tree other : SettingTree) : Prop :=
  (∀ x ∈ Config.slots, tree.under? x.path = other.under? x.path) ∧
    ∀ name description g, Entry.group name description g ∈ Config.entries →
      plainOnly (tree.under? [name]) = plainOnly (other.under? [name])

theorem plainOnly_of_table {t : SettingTree} (h : t.IsTable) : plainOnly (some t) = none := by
  simp [plainOnly, Option.filter, h]

theorem eq_some_of_plainOnly {value : Option SettingTree} {t : SettingTree}
    (h : plainOnly value = some t) : value = some t := (Option.filter_eq_some_iff.mp h).1

theorem given_group {name description : String} {g : SettingGroup}
    (hg : Entry.group name description g ∈ Config.entries) {value : Option SettingTree}
    (htidy : ∀ t, value = some t → t.Tidy) (hplain : plainOnly value = none) :
    given name g.ofTree value = fun c => inside name (inTurn (g.settings.map fun s =>
      given s.name s.ofTree (value.bind fun t => t.under? [s.name])) c) := by
  funext c
  cases value with
  | none =>
    rw [inTurn_eq_ok]
    · rfl
    · intro act hact c
      obtain ⟨s, -, rfl⟩ := List.mem_map.mp hact
      rfl
  | some t =>
    have ht : t.IsTable := by simpa [plainOnly, Option.filter] using hplain
    obtain ⟨entries, rfl⟩ := exists_table ht
    have hnodup := ((tidy_table_iff entries).mp (htidy _ rfl)).1
    simp only [Option.bind_some, under?_name]
    rw [← SettingGroup.acts_table, given, SettingGroup.ofTree_table (ordered_of_mem hg) hnodup]

theorem exists_slot {name description : String} {g : SettingGroup}
    (hg : Entry.group name description g ∈ Config.entries) {s : Setting} (hs : s ∈ g.settings) :
    ∃ x ∈ Config.slots, x.path = [name, s.name] := by
  rw [← List.zipIdx_map_fst 0 g.settings] at hs
  obtain ⟨m, hm, rfl⟩ := List.mem_map.mp hs
  exact ⟨_, List.mem_flatMap.mpr ⟨_, hg, List.mem_map.mpr ⟨m, hm, rfl⟩⟩, rfl⟩

/-- What a tree has besides does not matter. -/
theorem Config.ofTree_congr {es' : Members SettingTree} (hes : (table es).Tidy)
    (hes' : (table es').Tidy) (h : Config.SameSettings (table es) (table es')) :
    Config.ofTree (table es) = Config.ofTree (table es') := by
  rw [Config.ofTree_table ((tidy_table_iff es).mp hes).1,
    Config.ofTree_table ((tidy_table_iff es').mp hes').1]
  have hacts : ∀ e ∈ Config.entries, given e.name e.ofTree ((table es).under? [e.name]) =
      given e.name e.ofTree ((table es').under? [e.name]) := by
    intro e he
    cases e with
    | setting s =>
      have hs := h.1 ⟨[s.name], none, s⟩
        (List.mem_flatMap.mpr ⟨_, he, List.mem_singleton.mpr rfl⟩)
      exact congrArg _ hs
    | group name description g =>
      have hsame := h.2 name description g he
      change given name g.ofTree ((table es).under? [name]) =
        given name g.ofTree ((table es').under? [name])
      cases hplain : plainOnly ((table es).under? [name]) with
      | some t =>
        rw [eq_some_of_plainOnly hplain, eq_some_of_plainOnly (hsame.symm.trans hplain)]
      | none =>
        rw [given_group he (fun _ => hes.under) hplain,
          given_group he (fun _ => hes'.under) (hsame.symm.trans hplain)]
        simp only [← under?_append, List.singleton_append]
        have hvalues : ∀ s ∈ g.settings, given s.name s.ofTree ((table es).under? [name, s.name]) =
            given s.name s.ofTree ((table es').under? [name, s.name]) := by
          intro s hs
          obtain ⟨x, hx, hpath⟩ := exists_slot he hs
          rw [← hpath, h.1 x hx]
        rw [List.map_congr_left hvalues]
  rw [List.map_congr_left hacts]

end Whole

end GraphShape
