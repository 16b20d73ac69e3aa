import GraphShape.Settings.Environment
import GraphShape.Yaml.Reading
import Mathlib.Tactic.SplitIfs

/-!
# Paths in trees of settings

What a path of names leads to goes through tables only. The key fact is that a join decides path by
path: the first tree's value stands unless both have a table there, and a value of the first tree
that is no table hides everything the second has below it.
-/

namespace GraphShape

namespace SettingTree

def IsTable : SettingTree → Prop
  | table _ => True
  | _ => False

instance (t : SettingTree) : Decidable t.IsTable := by
  cases t <;> unfold IsTable <;> infer_instance

/-- What a path of names leads to. -/
def under? : SettingTree → List String → Option SettingTree
  | tree, [] => some tree
  | table entries, name :: names => (Members.get? entries name).bind (fun t => t.under? names)
  | _, _ :: _ => none

/-- A value that is no table stands on the way. -/
def Blocks (tree : SettingTree) (path : List String) : Prop :=
  ∃ front name rest value, path = front ++ name :: rest ∧ tree.under? front = some value ∧
    ¬ value.IsTable

theorem exists_table {t : SettingTree} (h : t.IsTable) : ∃ entries, t = table entries := by
  cases t with
  | table entries => exact ⟨entries, rfl⟩
  | _ => exact h.elim

theorem under?_cons_of_not_table {t : SettingTree} (h : ¬ t.IsTable) (name : String)
    (names : List String) : t.under? (name :: names) = none := by
  cases t with
  | table entries => exact absurd trivial h
  | _ => rfl

theorem under?_append (t : SettingTree) (front rest : List String) :
    t.under? (front ++ rest) = (t.under? front).bind (fun u => u.under? rest) := by
  induction front generalizing t with
  | nil => rfl
  | cons name names ih =>
    by_cases h : t.IsTable
    · obtain ⟨entries, rfl⟩ := exists_table h
      rw [List.cons_append, under?, under?, Option.bind_assoc]
      exact congrArg _ (funext fun u => ih u)
    · rw [List.cons_append, under?_cons_of_not_table h, under?_cons_of_not_table h]
      rfl

theorem not_blocks_nil (t : SettingTree) : ¬ t.Blocks [] := by
  rintro ⟨front, name, rest, value, h, -⟩
  simp at h

theorem blocks_cons_of_not_table {t : SettingTree} (h : ¬ t.IsTable) (name : String)
    (names : List String) : t.Blocks (name :: names) :=
  ⟨[], name, names, t, rfl, rfl, h⟩

theorem blocks_table_cons_iff (entries : Members SettingTree) (name : String)
    (names : List String) : (table entries).Blocks (name :: names) ↔
      ∃ t, Members.get? entries name = some t ∧ t.Blocks names := by
  constructor
  · rintro ⟨front, other, rest, value, hpath, hvalue, htable⟩
    cases front with
    | nil =>
      cases hvalue
      exact absurd trivial htable
    | cons first front =>
      obtain ⟨rfl, rfl⟩ := List.cons.inj hpath
      obtain ⟨t, ht, hvalue⟩ := Option.bind_eq_some_iff.mp hvalue
      exact ⟨t, ht, front, other, rest, value, rfl, hvalue, htable⟩
  · rintro ⟨t, ht, front, other, rest, value, rfl, hvalue, htable⟩
    refine ⟨name :: front, other, rest, value, rfl, ?_, htable⟩
    rw [under?, ht]
    exact hvalue

/-! ## Joins -/

theorem get?_append (xs ys : Members SettingTree) (name : String) :
    Members.get? (xs ++ ys) name = (Members.get? xs name).or (Members.get? ys name) := by
  induction xs with
  | nil => rfl
  | cons x xs ih =>
    obtain ⟨other, t⟩ := x
    by_cases h : other = name
    · simp [Members.get?, h]
    · simpa [Members.get?, h] using ih

theorem get?_filter_not_has (xs ys : Members SettingTree) (name : String) :
    Members.get? (ys.filter (fun y => !Members.has xs y.1)) name =
      if Members.has xs name then none else Members.get? ys name := by
  induction ys with
  | nil => simp [Members.get?]
  | cons y ys ih =>
    obtain ⟨other, t⟩ := y
    by_cases hother : Members.has xs other = true
    · rw [List.filter_cons_of_neg (by simpa using hother), ih]
      by_cases h : other = name
      · simp [← h, hother]
      · simp [Members.get?, h]
    · rw [List.filter_cons_of_pos (by simpa using hother)]
      by_cases h : other = name
      · simp [Members.get?, ← h, hother]
      · simpa [Members.get?, h] using ih

theorem get?_joinEntries (xs ys : Members SettingTree) (name : String) :
    Members.get? (joinEntries xs ys) name =
      (Members.get? xs name).map (fun x => joinValue x (Members.get? ys name)) := by
  induction xs with
  | nil => rw [joinEntries]; rfl
  | cons x xs ih =>
    obtain ⟨other, t⟩ := x
    by_cases h : other = name
    · simp [joinEntries, Members.get?, h]
    · simpa [joinEntries, Members.get?, h] using ih

theorem get?_join (xs ys : Members SettingTree) (name : String) :
    Members.get? (joinEntries xs ys ++ ys.filter (fun y => !Members.has xs y.1)) name =
      ((Members.get? xs name).map (fun x => joinValue x (Members.get? ys name))).or
        (Members.get? ys name) := by
  rw [get?_append, get?_joinEntries, get?_filter_not_has, Members.has]
  cases Members.get? xs name <;> simp

theorem join_of_not_tables {a b : SettingTree} (h : ¬ (a.IsTable ∧ b.IsTable)) : a.join b = a := by
  rw [join]
  rintro xs ys rfl rfl
  exact h ⟨trivial, trivial⟩

theorem join_of_not_table {a : SettingTree} (h : ¬ a.IsTable) (b : SettingTree) : a.join b = a :=
  join_of_not_tables fun hboth => h hboth.1

theorem join_of_second_not_table {b : SettingTree} (a : SettingTree) (h : ¬ b.IsTable) :
    a.join b = a :=
  join_of_not_tables fun hboth => h hboth.2

theorem joinValue_of_not_table {v : SettingTree} (h : ¬ v.IsTable) (other : Option SettingTree) :
    joinValue v other = v := by
  cases other with
  | none => rw [joinValue]
  | some y => rw [joinValue, join_of_not_table h]

theorem isTable_joinValue {v : SettingTree} (h : v.IsTable) (other : Option SettingTree) :
    (joinValue v other).IsTable := by
  obtain ⟨xs, rfl⟩ := exists_table h
  cases other with
  | none =>
    rw [joinValue]
    trivial
  | some y =>
    rw [joinValue]
    by_cases hy : y.IsTable
    · obtain ⟨ys, rfl⟩ := exists_table hy
      rw [join]
      trivial
    · rw [join_of_second_not_table _ hy]
      trivial

theorem under?_join_of_some {a b x : SettingTree} {path : List String}
    (h : a.under? path = some x) :
    (a.join b).under? path = some (joinValue x (b.under? path)) := by
  induction path generalizing a b with
  | nil =>
    cases h
    rw [under?, under?, joinValue]
  | cons name names ih =>
    by_cases ha : a.IsTable
    · obtain ⟨xs, rfl⟩ := exists_table ha
      obtain ⟨t, ht, hx⟩ := Option.bind_eq_some_iff.mp h
      by_cases hb : b.IsTable
      · obtain ⟨ys, rfl⟩ := exists_table hb
        rw [join, under?, under?, get?_join, ht]
        cases Members.get? ys name with
        | none => simpa [joinValue] using hx
        | some u => simpa [joinValue] using ih hx
      · rw [join_of_second_not_table _ hb, under?_cons_of_not_table hb, h, joinValue]
    · rw [under?_cons_of_not_table ha] at h
      cases h

theorem under?_of_blocks {a : SettingTree} {path : List String} (h : a.Blocks path) :
    a.under? path = none := by
  induction path generalizing a with
  | nil => exact absurd h (not_blocks_nil a)
  | cons name names ih =>
    by_cases ha : a.IsTable
    · obtain ⟨xs, rfl⟩ := exists_table ha
      obtain ⟨t, ht, hblocks⟩ := (blocks_table_cons_iff xs name names).mp h
      rw [under?, ht]
      exact ih hblocks
    · exact under?_cons_of_not_table ha name names

theorem blocks_join_of_blocks {a : SettingTree} {path : List String} (h : a.Blocks path)
    (b : SettingTree) : (a.join b).Blocks path := by
  obtain ⟨front, name, rest, value, rfl, hvalue, htable⟩ := h
  refine ⟨front, name, rest, value, rfl, ?_, htable⟩
  rw [under?_join_of_some hvalue, joinValue_of_not_table htable]

theorem under?_join_of_none {a b : SettingTree} {path : List String} (h : a.under? path = none)
    (hfree : ¬ a.Blocks path) : (a.join b).under? path = b.under? path := by
  induction path generalizing a b with
  | nil => cases h
  | cons name names ih =>
    by_cases ha : a.IsTable
    · obtain ⟨xs, rfl⟩ := exists_table ha
      by_cases hb : b.IsTable
      · obtain ⟨ys, rfl⟩ := exists_table hb
        rw [under?] at h
        rw [blocks_table_cons_iff] at hfree
        rw [join, under?, under?, get?_join]
        cases hx : Members.get? xs name with
        | none => simp
        | some t =>
          rw [hx] at h
          have hbelow : ¬ t.Blocks names := fun hblocks => hfree ⟨t, hx, hblocks⟩
          cases Members.get? ys name with
          | none => simpa [joinValue] using h
          | some u => simpa [joinValue] using ih h hbelow
      · rw [join_of_second_not_table _ hb, under?_cons_of_not_table hb, h]
    · exact absurd (blocks_cons_of_not_table ha name names) hfree

/-! ## Tables without repeats -/

/-- No table that a path leads to has a name twice. -/
def Tidy (tree : SettingTree) : Prop :=
  ∀ path entries, tree.under? path = some (table entries) → (Members.names entries).Nodup

theorem Tidy.under {tree t : SettingTree} (h : tree.Tidy) {path : List String}
    (ht : tree.under? path = some t) : t.Tidy := by
  intro below entries hbelow
  refine h (path ++ below) entries ?_
  rw [under?_append, ht]
  exact hbelow

theorem tidy_of_not_table {t : SettingTree} (h : ¬ t.IsTable) : t.Tidy := by
  rintro (- | ⟨name, names⟩) entries hpath
  · cases hpath
    exact absurd trivial h
  · rw [under?_cons_of_not_table h] at hpath
    cases hpath

theorem tidy_table_iff (entries : Members SettingTree) : (table entries).Tidy ↔
    (Members.names entries).Nodup ∧ ∀ name t, Members.get? entries name = some t → t.Tidy := by
  constructor
  · intro h
    refine ⟨h [] entries rfl, fun name t ht path below hpath => h (name :: path) below ?_⟩
    rw [under?, ht]
    exact hpath
  · rintro ⟨hnodup, hbelow⟩ (- | ⟨name, names⟩) below hpath
    · cases hpath
      exact hnodup
    · obtain ⟨t, ht, hpath⟩ := Option.bind_eq_some_iff.mp hpath
      exact hbelow name t ht names below hpath

theorem names_joinEntries (xs ys : Members SettingTree) :
    Members.names (joinEntries xs ys) = Members.names xs := by
  induction xs with
  | nil => rw [joinEntries]
  | cons x xs ih => rw [joinEntries, Members.names_cons, ih, Members.names_cons]

theorem nodup_names_join {xs ys : Members SettingTree} (hxs : (Members.names xs).Nodup)
    (hys : (Members.names ys).Nodup) :
    (Members.names (joinEntries xs ys ++ ys.filter (fun y => !Members.has xs y.1))).Nodup := by
  rw [Members.names_append, names_joinEntries, List.nodup_append]
  refine ⟨hxs, hys.sublist (List.filter_sublist.map _), ?_⟩
  rintro name hname _ hother rfl
  obtain ⟨y, hy, rfl⟩ := List.mem_map.mp hother
  have hnew := (List.mem_filter.mp hy).2
  rw [← Members.has_iff] at hname
  simp [hname] at hnew

theorem Tidy.join {a b : SettingTree} (ha : a.Tidy) (hb : b.Tidy) : (a.join b).Tidy := by
  intro path entries hpath
  cases hx : a.under? path with
  | none =>
    by_cases hblocks : a.Blocks path
    · rw [under?_of_blocks (blocks_join_of_blocks hblocks b)] at hpath
      cases hpath
    · rw [under?_join_of_none hx hblocks] at hpath
      exact hb path entries hpath
  | some x =>
    rw [under?_join_of_some hx, Option.some.injEq] at hpath
    by_cases hboth : x.IsTable ∧ ∃ y, b.under? path = some y ∧ y.IsTable
    · obtain ⟨hxt, y, hy, hyt⟩ := hboth
      obtain ⟨xs, rfl⟩ := exists_table hxt
      obtain ⟨ys, rfl⟩ := exists_table hyt
      rw [hy, joinValue, SettingTree.join] at hpath
      cases hpath
      exact nodup_names_join (ha path xs hx) (hb path ys hy)
    · have hself : joinValue x (b.under? path) = x := by
        cases hy : b.under? path with
        | none => rw [joinValue]
        | some y =>
          rw [joinValue]
          exact join_of_not_tables fun h => hboth ⟨h.1, y, hy, h.2⟩
      rw [hself] at hpath
      exact ha path entries (hpath ▸ hx)

theorem tidy_put {entries : Members SettingTree} {t : SettingTree} (name : String)
    (h : (table entries).Tidy) (ht : t.Tidy) : (table (Members.put entries name t)).Tidy := by
  rw [tidy_table_iff] at h ⊢
  refine ⟨Members.nodup_names_put name t h.1, fun other u hu => ?_⟩
  by_cases hother : other = name
  · subst hother
    rw [Members.get?_put_self] at hu
    cases hu
    exact ht
  · rw [Members.get?_put_of_ne _ _ hother] at hu
    exact h.2 other u hu

theorem tidy_empty : (table []).Tidy := (tidy_table_iff []).mpr ⟨List.nodup_nil, by simp [Members.get?]⟩

theorem tidy_single (name : String) {t : SettingTree} (h : t.Tidy) : (table [(name, t)]).Tidy :=
  tidy_put name tidy_empty h

/-! ### Trees of the environment -/

theorem tidy_ofBare (text : List Char) : (ofBare text).Tidy := by
  refine tidy_of_not_table ?_
  simp only [ofBare]
  split
  · exact id
  · split <;> exact id

theorem tidy_readNotation (n : Nat) :
    (∀ text tree rest, readNotation n text = some (tree, rest) → tree.Tidy) ∧
    ∀ text entries found rest, (table entries).Tidy →
      readEntries n text entries = some (found, rest) → (table found).Tidy := by
  -- Entries are put under their keys one after the other, so no key is there twice.
  induction n with
  | zero =>
    refine ⟨fun text tree rest h => ?_, fun text entries found rest _ h => ?_⟩
    · rw [readNotation] at h
      cases h
    · rw [readEntries] at h
      cases h
  | succ n ih =>
    refine ⟨fun text tree rest h => ?_, fun text entries found rest hentries h => ?_⟩
    · rw [readNotation] at h
      split at h
      · cases h
        exact tidy_of_not_table id
      · cases h
        exact tidy_of_not_table id
      · split at h
        · obtain ⟨_, hread, hpair⟩ := Option.bind_eq_some_iff.mp h
          obtain ⟨⟨entries, after⟩, hentries, rfl⟩ := Option.map_eq_some_iff.mp hread
          cases hpair
          exact ih.2 _ _ _ _ tidy_empty hentries
        · obtain ⟨_, hread, hpair⟩ := Option.bind_eq_some_iff.mp h
          obtain ⟨⟨items, after⟩, -, rfl⟩ := Option.map_eq_some_iff.mp hread
          cases hpair
          exact tidy_of_not_table id
        · obtain ⟨_, hread, hpair⟩ := Option.bind_eq_some_iff.mp h
          obtain ⟨⟨s, after⟩, -, rfl⟩ := Option.map_eq_some_iff.mp hread
          cases hpair
          exact tidy_of_not_table id
        · cases h
          exact tidy_of_not_table id
        · cases h
        · cases h
          exact tidy_ofBare _
    · by_cases hclose : ∃ after, text = '\x7d' :: after
      · obtain ⟨after, rfl⟩ := hclose
        rw [readEntries] at h
        cases h
        exact hentries
      · rw [readEntries.eq_3 _ _ _ fun after htext => hclose ⟨after, htext⟩] at h
        obtain ⟨⟨key, more⟩, -, h⟩ := Option.bind_eq_some_iff.mp h
        obtain ⟨⟨value, more⟩, hvalue, h⟩ := Option.bind_eq_some_iff.mp h
        have hput := tidy_put key hentries (ih.1 _ _ _ hvalue)
        dsimp only at h
        split at h
        · exact ih.2 _ _ _ _ hput h
        · cases h
          exact hput
        · cases h

theorem tidy_ofVariable (text : String) : (ofVariable text).Tidy := by
  rw [ofVariable]
  split
  · next tree hread => exact (tidy_readNotation _).1 _ _ _ hread
  · exact tidy_of_not_table id

theorem tidy_nest (path : List String) {value : SettingTree} (h : value.Tidy) :
    (nest path value).Tidy := by
  induction path with
  | nil => exact h
  | cons name names ih => exact tidy_single name ih

/-- A tree with one variable more. -/
def record (tree : SettingTree) (name text : String) : SettingTree :=
  match pathOf? name with
  | some path => (nest path (ofVariable text)).join tree
  | none => tree

theorem ofEnvironment_eq (environment : Environment) :
    ofEnvironment environment = environment.foldl (fun tree v => tree.record v.1 v.2) (table []) :=
  rfl

theorem tidy_ofEnvironment (environment : Environment) : (ofEnvironment environment).Tidy := by
  rw [ofEnvironment_eq]
  refine List.foldlRecOn environment _ tidy_empty fun tree htree v _ => ?_
  rw [record]
  split
  · exact (tidy_nest _ (tidy_ofVariable _)).join htree
  · exact htree

theorem splitUnderscores_ne_nil (text : List Char) : splitUnderscores text ≠ [] := by
  unfold splitUnderscores
  split
  · simp
  · split <;> simp
  · simp

theorem pathOf?_ne_nil {label : String} {path : List String} (h : pathOf? label = some path) :
    path ≠ [] := by
  simp only [pathOf?] at h
  split_ifs at h
  cases h
  obtain ⟨part, parts, hparts⟩ := List.exists_cons_of_ne_nil
    (splitUnderscores_ne_nil (Text.trim ((Text.trim label.toList).drop variablePrefix.length)))
  rw [hparts]
  simp [List.splitOn_ne_nil]

theorem isTable_ofEnvironment (environment : Environment) : (ofEnvironment environment).IsTable := by
  rw [ofEnvironment_eq]
  refine List.foldlRecOn environment _ trivial fun tree htree v _ => ?_
  rw [record]
  split
  · next path hpath =>
    obtain ⟨name, names, rfl⟩ := List.exists_cons_of_ne_nil (pathOf?_ne_nil hpath)
    have htable : (nest (name :: names) (ofVariable v.2)).IsTable := trivial
    have hjoined := isTable_joinValue htable (some tree)
    rwa [joinValue] at hjoined
  · exact htree

/-! ### Where variables stand -/

/-- Neither path leads on from the other. -/
def Apart (p q : List String) : Prop := ¬ p <+: q ∧ ¬ q <+: p

theorem get?_single (name other : String) (t : SettingTree) :
    Members.get? [(name, t)] other = if name = other then some t else none := rfl

theorem under?_nest (path : List String) (value : SettingTree) :
    (nest path value).under? path = some value := by
  induction path with
  | nil => rfl
  | cons name names ih =>
    rw [nest, under?, get?_single, if_pos rfl]
    exact ih

theorem nest_free_of_apart {p q : List String} (h : Apart q p) (value : SettingTree) :
    (nest q value).under? p = none ∧ ¬ (nest q value).Blocks p := by
  induction q generalizing p with
  | nil => exact absurd List.nil_prefix h.1
  | cons name names ih =>
    cases p with
    | nil => exact absurd List.nil_prefix h.2
    | cons other others =>
      rw [nest, under?, blocks_table_cons_iff, get?_single]
      by_cases hname : name = other
      · subst hname
        have hbelow : Apart names others :=
          ⟨fun hp => h.1 ((List.prefix_cons_inj _).mpr hp),
            fun hp => h.2 ((List.prefix_cons_inj _).mpr hp)⟩
        rw [if_pos rfl]
        refine ⟨(ih hbelow).1, ?_⟩
        rintro ⟨t, ht, hblocks⟩
        cases ht
        exact (ih hbelow).2 hblocks
      · rw [if_neg hname]
        exact ⟨rfl, by simp⟩

theorem under?_foldl_record {p : List String} (environment : Environment) (tree : SettingTree)
    (h : ∀ v ∈ environment, ∀ q, pathOf? v.1 = some q → Apart q p) :
    (environment.foldl (fun tree v => tree.record v.1 v.2) tree).under? p = tree.under? p := by
  induction environment generalizing tree with
  | nil => rfl
  | cons v environment ih =>
    rw [List.foldl_cons, ih _ fun w hw => h w (List.mem_cons_of_mem _ hw), record]
    split
    · next q hq =>
      obtain ⟨hnone, hfree⟩ :=
        nest_free_of_apart (h v List.mem_cons_self q hq) (ofVariable v.2)
      exact under?_join_of_none hnone hfree
    · rfl

theorem joinEntries_nil (xs : Members SettingTree) : joinEntries xs [] = xs := by
  induction xs with
  | nil => rw [joinEntries]
  | cons x xs ih => rw [joinEntries, ih, Members.get?, joinValue]

theorem join_empty (t : SettingTree) : t.join (table []) = t := by
  by_cases h : t.IsTable
  · obtain ⟨xs, rfl⟩ := exists_table h
    rw [join, joinEntries_nil, List.filter_nil, List.append_nil]
  · exact join_of_not_table h _

/-- The variables name settings of which none is inside another. -/
def Distinct (environment : Environment) : Prop :=
  environment.Pairwise fun v w =>
    ∀ p q, pathOf? v.1 = some p → pathOf? w.1 = some q → Apart p q

/-- Each variable's value stands at its path. -/
theorem under?_ofEnvironment {environment : Environment} (h : Distinct environment)
    {name text : String} (hv : (name, text) ∈ environment) {path : List String}
    (hpath : pathOf? name = some path) :
    (ofEnvironment environment).under? path = some (ofVariable text) := by
  obtain ⟨before, after, rfl⟩ := List.append_of_mem hv
  obtain ⟨-, hcons, hcross⟩ := List.pairwise_append.mp h
  have hafter : ∀ w ∈ after, ∀ q, pathOf? w.1 = some q → Apart q path := by
    intro w hw q hq
    exact (List.rel_of_pairwise_cons hcons hw path q hpath hq).symm
  have hbefore : ∀ w ∈ before, ∀ q, pathOf? w.1 = some q → Apart q path := by
    intro w hw q hq
    exact hcross w hw _ List.mem_cons_self q path hq hpath
  have hempty : joinValue (ofVariable text) ((table []).under? path) = ofVariable text := by
    cases path with
    | nil => rw [under?, joinValue, join_empty]
    | cons first rest => rw [under?, Members.get?, Option.bind_none, joinValue]
  rw [ofEnvironment_eq, List.foldl_append, List.foldl_cons, under?_foldl_record _ _ hafter,
    record, hpath]
  dsimp only
  rw [under?_join_of_some (under?_nest path _), under?_foldl_record _ _ hbefore, hempty]

/-! ### Trees of files -/

end SettingTree

namespace Yaml

open SettingTree

/-- Whatever is followed, the result has the property. -/
def Gives {α : Type} (r : Following α) (p : α → Prop) : Prop :=
  ∀ left a after, r left = some (a, after) → p a

namespace Gives

variable {α β : Type} {p : α → Prop} {q : β → Prop}

theorem pure {a : α} (h : p a) : Gives (Pure.pure a) p := by
  rintro left b after hb
  cases hb
  exact h

theorem bind {r : Following α} {f : α → Following β} (hr : Gives r p)
    (hf : ∀ a, p a → Gives (f a) q) : Gives (r >>= f) q := by
  intro left b after hb
  obtain ⟨⟨a, between⟩, ha, hb⟩ := Option.bind_eq_some_iff.mp hb
  exact hf a (hr _ _ _ ha) _ _ _ hb

theorem any (r : Following α) : Gives r (fun _ => True) := fun _ _ _ _ => trivial

theorem failure : Gives (failure : Following α) p := fun _ _ _ h => by cases h

theorem foldlM {γ : Type} {f : α → γ → Following α} (hf : ∀ a x, p a → Gives (f a x) p)
    (xs : List γ) {a : α} (ha : p a) : Gives (xs.foldlM f a) p := by
  induction xs generalizing a with
  | nil => exact pure ha
  | cons x xs ih =>
    rw [List.foldlM_cons]
    exact bind (hf a x ha) fun b hb => ih hb

end Gives

theorem tidy_underTag (tag : Option TagBytes) {tree : SettingTree} (h : tree.Tidy) :
    (underTag tag tree).Tidy := by
  rw [underTag]
  split
  · exact tidy_single _ h
  · exact h

theorem gives_tableOf (anchors : Anchors) {read : Node → Following SettingTree}
    (h : ∀ node, Gives (read node) Tidy) (pairs : List (Node × Node)) :
    Gives (tableOf anchors read pairs) fun entries => (table entries).Tidy := by
  refine Gives.foldlM (p := fun entries => (table entries).Tidy) ?_ pairs tidy_empty
  intro entries pair hentries
  refine Gives.bind (Gives.any _) fun name _ => ?_
  refine Gives.bind (h pair.2) fun tree htree => ?_
  exact Gives.pure (tidy_put name hentries htree)

theorem not_isTable_of_int? {text : List Char} {tree : SettingTree} (h : int? text = some tree) :
    ¬ tree.IsTable := by
  unfold int? at h
  split at h
  · split_ifs at h <;> cases h <;> exact id
  · split_ifs at h <;> cases h <;> exact id
  · cases h

theorem not_isTable_plainTree (text : String) : ¬ (plainTree text).IsTable := by
  unfold plainTree
  split
  · exact id
  · split
    · exact id
    · next tree hint => exact not_isTable_of_int? hint
    · split <;> exact id

theorem not_isTable_of_scalarTree? {tag : Option TagBytes} {plain : Bool} {text : String}
    {tree : SettingTree} (h : scalarTree? tag plain text = some tree) : ¬ tree.IsTable := by
  have hbare : ¬ (if plain then plainTree text else .string text).IsTable := by
    split
    · exact not_isTable_plainTree text
    · exact id
  simp only [scalarTree?] at h
  generalize (if plain then plainTree text else .string text) = bare at h hbare
  split at h
  · cases h
    exact hbare
  · split_ifs at h
    · cases h
      exact hbare
    · obtain ⟨b, -, rfl⟩ := Option.map_eq_some_iff.mp h
      exact id
    · exact not_isTable_of_int? h
    · obtain ⟨r, -, rfl⟩ := Option.map_eq_some_iff.mp h
      exact id
    · cases h
      exact id
    · cases h
      exact id

theorem gives_scalar (tag : Option TagBytes) (plain : Bool) (text : String) :
    Gives (do
      let tree ← (scalarTree? tag plain text : Option SettingTree)
      pure (underTag tag tree)) Tidy := by
  refine Gives.bind (p := Tidy) ?_ fun tree htree => Gives.pure (tidy_underTag tag htree)
  intro left tree after h
  obtain ⟨t, ht, h⟩ := Option.bind_eq_some_iff.mp h
  cases h
  exact tidy_of_not_table (not_isTable_of_scalarTree? ht)

theorem gives_treeOf (anchors : Anchors) (n : Nat) (node : Node) :
    Gives (treeOf anchors n node) Tidy := by
  induction n generalizing node with
  | zero =>
    rw [treeOf]
    refine Gives.bind (Gives.any _) fun found _ => ?_
    split
    · exact gives_scalar _ _ _
    · exact Gives.failure
  | succ n ih =>
    rw [treeOf]
    refine Gives.bind (Gives.any _) fun found _ => ?_
    split
    · exact gives_scalar _ _ _
    · refine Gives.bind (Gives.any _) fun trees _ => ?_
      exact Gives.pure (tidy_underTag _ (tidy_of_not_table id))
    · refine Gives.bind (gives_tableOf anchors ih _) fun entries hentries => ?_
      exact Gives.pure (tidy_underTag _ hentries)
    · exact Gives.failure

end Yaml

theorem SettingTree.ofYaml?_eq_some {text : String} {tree : SettingTree}
    (h : SettingTree.ofYaml? text = some tree) : tree.IsTable ∧ tree.Tidy := by
  rw [ofYaml?] at h
  split at h
  · cases h
  · cases h
    exact ⟨trivial, tidy_empty⟩
  · obtain ⟨entries, hentries, rfl⟩ := Option.map_eq_some_iff.mp h
    refine ⟨trivial, ?_⟩
    rw [Yaml.Document.table?] at hentries
    split at hentries
    · cases hentries
      exact tidy_empty
    · obtain ⟨⟨found, after⟩, hread, rfl⟩ := Option.map_eq_some_iff.mp hentries
      exact Yaml.gives_tableOf _ (Yaml.gives_treeOf _ _) _ _ _ _ hread
    · cases hentries

end GraphShape
