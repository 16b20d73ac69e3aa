import GraphShape.Settings.TreeReading
import Mathlib.Data.List.Sort
import Mathlib.Data.String.Basic

/-!
# The order in which settings are read

A tree is read entry by entry, the smallest name first, and what names no setting is passed over.
The key fact is that the settings are listed in the order of their names, so reading the entries of
a table is the same as going through the settings and reading for each what the table has for it.
-/

namespace GraphShape

namespace SettingTree

abbrev Act := Config → Except Problem Config

/-- One after the other, up to the first problem. -/
def inTurn (acts : List Act) (c : Config) : Except Problem Config :=
  acts.foldlM (fun c act => act c) c

/-- Reads a value under a label, if there is one. -/
def given (label : String) (read : SettingTree → Act) : Option SettingTree → Act
  | none, c => .ok c
  | some tree, c => inside label (read tree c)

/-! ## One after the other -/

@[simp] theorem inTurn_nil (c : Config) : inTurn [] c = .ok c := rfl

theorem inTurn_cons (act : Act) (acts : List Act) (c : Config) :
    inTurn (act :: acts) c = (act c).bind (inTurn acts) := rfl

theorem inTurn_append (acts more : List Act) (c : Config) :
    inTurn (acts ++ more) c = (inTurn acts c).bind (inTurn more) := by
  induction acts generalizing c with
  | nil => rfl
  | cons act acts ih =>
    rw [List.cons_append, inTurn_cons, inTurn_cons]
    cases act c with
    | error e => rfl
    | ok c₁ => exact ih c₁

theorem inTurn_eq_ok {acts : List Act} (h : ∀ act ∈ acts, ∀ c, act c = .ok c) (c : Config) :
    inTurn acts c = .ok c := by
  induction acts with
  | nil => rfl
  | cons act acts ih =>
    rw [inTurn_cons, h act List.mem_cons_self]
    exact ih fun act hact => h act (List.mem_cons_of_mem _ hact)

theorem inside_error {α : Type} {label : String} {result : Except Problem α} {p : Problem}
    (h : inside label result = .error p) : ∃ q, result = .error q ∧ p = q.under label := by
  cases result with
  | error q =>
    cases h
    exact ⟨q, rfl, rfl⟩
  | ok a => cases h

theorem inside_ok {α : Type} {label : String} {result : Except Problem α} {a : α}
    (h : inside label result = .ok a) : result = .ok a := by
  cases result with
  | error q => cases h
  | ok b =>
    cases h
    rfl

/-- What an act leaves alone when it succeeds. -/
def Keeps {β : Type} (f : Config → β) (act : Act) : Prop := ∀ c c', act c = .ok c' → f c' = f c

section Keeping

variable {β : Type} {f : Config → β}

theorem keeps_ok : Keeps f (fun c => .ok c) := by
  rintro c c' ⟨⟩
  rfl

theorem keeps_error (p : Problem) : Keeps f (fun _ => .error p) := by
  rintro c c' ⟨⟩

theorem Keeps.inside {act : Act} (h : Keeps f act) (label : String) :
    Keeps f (fun c => inside label (act c)) := fun c c' hc => h c c' (inside_ok hc)

theorem Keeps.given {read : SettingTree → Act} (h : ∀ tree, Keeps f (read tree)) (label : String)
    (value : Option SettingTree) : Keeps f (given label read value) := by
  cases value with
  | none => exact keeps_ok
  | some tree => exact (h tree).inside label

theorem Keeps.bind {act : Act} {next : Config → Except Problem Config} (h : Keeps f act)
    (hnext : Keeps f next) : Keeps f (fun c => (act c).bind next) := by
  intro c c' hc
  cases hact : act c with
  | error p =>
    simp only [hact] at hc
    cases hc
  | ok c₁ =>
    simp only [hact] at hc
    exact (hnext c₁ c' hc).trans (h c c₁ hact)

theorem Keeps.inTurn {acts : List Act} (h : ∀ act ∈ acts, Keeps f act) : Keeps f (inTurn acts) := by
  induction acts with
  | nil => exact keeps_ok
  | cons act acts ih =>
    exact (h act List.mem_cons_self).bind (ih fun act hact => h act (List.mem_cons_of_mem _ hact))

theorem inTurn_ok_at {before after : List Act} {act : Act} {c c' : Config}
    (h : SettingTree.inTurn (before ++ act :: after) c = .ok c')
    (hbefore : ∀ act ∈ before, Keeps f act) (hafter : ∀ act ∈ after, Keeps f act) :
    ∃ c₁ c₂, act c₁ = .ok c₂ ∧ f c₁ = f c ∧ f c' = f c₂ := by
  rw [inTurn_append] at h
  cases h₁ : SettingTree.inTurn before c with
  | error p =>
    rw [h₁] at h
    cases h
  | ok c₁ =>
    rw [h₁] at h
    change (act c₁).bind (SettingTree.inTurn after) = .ok c' at h
    cases h₂ : act c₁ with
    | error p =>
      rw [h₂] at h
      cases h
    | ok c₂ =>
      rw [h₂] at h
      exact ⟨c₁, c₂, h₂, Keeps.inTurn hbefore c c₁ h₁, Keeps.inTurn hafter c₂ c' h⟩

end Keeping

theorem inTurn_error {acts : List Act} {c : Config} {p : Problem} (h : inTurn acts c = .error p) :
    ∃ act ∈ acts, ∃ c₁, act c₁ = .error p := by
  induction acts generalizing c with
  | nil => cases h
  | cons act acts ih =>
    rw [inTurn_cons] at h
    cases hact : act c with
    | error q =>
      rw [hact] at h
      cases h
      exact ⟨act, List.mem_cons_self, c, hact⟩
    | ok c₁ =>
      rw [hact] at h
      obtain ⟨other, hother, c₂, hp⟩ := ih h
      exact ⟨other, List.mem_cons_of_mem _ hother, c₂, hp⟩

/-! ## Tables -/

section Tables

variable (readers : List (String × (SettingTree → Act)))

/-- The entries that have a reader, each with it. -/
def matched (entries : Members SettingTree) : List (String × (SettingTree → Act) × SettingTree) :=
  entries.filterMap fun e => (Members.get? readers e.1).map fun read => (e.1, read, e.2)

/-- The readers that have an entry, each with it. -/
def served (entries : Members SettingTree) : List (String × (SettingTree → Act) × SettingTree) :=
  readers.filterMap fun r => (Members.get? entries r.1).map fun tree => (r.1, r.2, tree)

theorem assignNamed_eq (entries : Members SettingTree) (c : Config) :
    assignNamed readers entries c =
      inTurn ((matched readers entries).map fun m => given m.1 m.2.1 (some m.2.2)) c := by
  induction entries generalizing c with
  | nil => rfl
  | cons e entries ih =>
    obtain ⟨name, tree⟩ := e
    rw [assignNamed, matched, List.filterMap_cons]
    cases Members.get? readers name with
    | none => exact ih c
    | some read =>
      refine bind_congr (m := Except Problem) fun c₁ => ?_
      exact ih c₁

theorem inTurn_served (entries : Members SettingTree) (c : Config) :
    inTurn ((served readers entries).map fun m => given m.1 m.2.1 (some m.2.2)) c =
      inTurn (readers.map fun r => given r.1 r.2 (Members.get? entries r.1)) c := by
  induction readers generalizing c with
  | nil => rfl
  | cons r readers ih =>
    rw [served, List.filterMap_cons, List.map_cons]
    cases hget : Members.get? entries r.1 with
    | none => exact ih c
    | some tree =>
      refine bind_congr (m := Except Problem) fun c₁ => ?_
      exact ih c₁

variable {readers}

theorem mem_matched {entries : Members SettingTree} {name : String} {read : SettingTree → Act}
    {tree : SettingTree} : (name, read, tree) ∈ matched readers entries ↔
      (name, tree) ∈ entries ∧ Members.get? readers name = some read := by
  simp only [matched, List.mem_filterMap, Option.map_eq_some_iff, Prod.mk.injEq]
  constructor
  · rintro ⟨e, he, _, hget, rfl, rfl, rfl⟩
    exact ⟨he, hget⟩
  · rintro ⟨he, hget⟩
    exact ⟨_, he, _, hget, rfl, rfl, rfl⟩

theorem mem_served {entries : Members SettingTree} {name : String} {read : SettingTree → Act}
    {tree : SettingTree} : (name, read, tree) ∈ served readers entries ↔
      (name, read) ∈ readers ∧ Members.get? entries name = some tree := by
  simp only [served, List.mem_filterMap, Option.map_eq_some_iff, Prod.mk.injEq]
  constructor
  · rintro ⟨r, hr, _, hget, rfl, rfl, rfl⟩
    exact ⟨hr, hget⟩
  · rintro ⟨hr, hget⟩
    exact ⟨_, hr, _, hget, rfl, rfl, rfl⟩

theorem matched_perm_served {entries : Members SettingTree}
    (hreaders : (Members.names readers).Nodup) (hentries : (Members.names entries).Nodup) :
    (matched readers entries).Perm (served readers entries) := by
  have hmatched : (matched readers entries).Nodup := by
    refine hentries.of_map.filterMap fun e e' m hm hm' => ?_
    obtain ⟨_, -, rfl⟩ := Option.map_eq_some_iff.mp hm
    obtain ⟨_, -, heq⟩ := Option.map_eq_some_iff.mp hm'
    simp only [Prod.mk.injEq] at heq
    exact Prod.ext heq.1.symm heq.2.2.symm
  have hserved : (served readers entries).Nodup := by
    refine hreaders.of_map.filterMap fun r r' m hm hm' => ?_
    obtain ⟨_, -, rfl⟩ := Option.map_eq_some_iff.mp hm
    obtain ⟨_, -, heq⟩ := Option.map_eq_some_iff.mp hm'
    simp only [Prod.mk.injEq] at heq
    exact Prod.ext heq.1.symm heq.2.1.symm
  rw [List.perm_ext_iff_of_nodup hmatched hserved]
  rintro ⟨name, read, tree⟩
  rw [mem_matched, mem_served, Members.get?_eq_some_iff hreaders,
    Members.get?_eq_some_iff hentries, and_comm]

/-- Names in order. -/
def Ascending {α : Type} (ms : List (String × α)) : Prop := ms.Pairwise fun a b => a.1 ≤ b.1

theorem ascending_inOrder (entries : Members SettingTree) : Ascending (inOrder entries) := by
  have h : (inOrder entries).Pairwise fun a b => decide (a.1 ≤ b.1) :=
    List.pairwise_mergeSort
      (fun a b c hab hbc => by
        simpa using String.le_trans (by simpa using hab) (by simpa using hbc))
      (fun a b => by simpa using String.le_total a.1 b.1) entries
  simpa [Ascending] using h

theorem names_inOrder_perm (entries : Members SettingTree) :
    (Members.names (inOrder entries)).Perm (Members.names entries) :=
  (List.mergeSort_perm entries _).map _

theorem get?_inOrder {entries : Members SettingTree} (h : (Members.names entries).Nodup)
    (name : String) : Members.get? (inOrder entries) name = Members.get? entries name := by
  have hsorted := (names_inOrder_perm entries).nodup_iff.mpr h
  ext tree
  rw [Members.get?_eq_some_iff hsorted, Members.get?_eq_some_iff h]
  exact (List.mergeSort_perm entries _).mem_iff

/-- Readers in the order of their names find the entries of a table in that order. -/
theorem assignNamed_inOrder {entries : Members SettingTree} (hentries : (Members.names entries).Nodup)
    (hreaders : (Members.names readers).Nodup) (hsorted : Ascending readers) (c : Config) :
    assignNamed readers (inOrder entries) c =
      inTurn (readers.map fun r => given r.1 r.2 (Members.get? entries r.1)) c := by
  have hnodup : (Members.names (inOrder entries)).Nodup :=
    (names_inOrder_perm entries).nodup_iff.mpr hentries
  have hmatched : (matched readers (inOrder entries)).Pairwise fun a b => a.1 ≤ b.1 := by
    refine (ascending_inOrder entries).filterMap _ fun e e' hle m hm m' hm' => ?_
    obtain ⟨_, -, rfl⟩ := Option.map_eq_some_iff.mp hm
    obtain ⟨_, -, rfl⟩ := Option.map_eq_some_iff.mp hm'
    exact hle
  have hserved : (served readers (inOrder entries)).Pairwise fun a b => a.1 ≤ b.1 := by
    refine hsorted.filterMap _ fun r r' hle m hm m' hm' => ?_
    obtain ⟨_, -, rfl⟩ := Option.map_eq_some_iff.mp hm
    obtain ⟨_, -, rfl⟩ := Option.map_eq_some_iff.mp hm'
    exact hle
  have hperm := matched_perm_served hreaders hnodup
  have heq : matched readers (inOrder entries) = served readers (inOrder entries) := by
    refine hperm.eq_of_pairwise ?_ hmatched hserved
    rintro ⟨name, read, tree⟩ ⟨other, read', tree'⟩ hm hm' hle hge
    obtain rfl : name = other := String.le_antisymm hle hge
    obtain ⟨he, hr⟩ := mem_matched.mp hm
    obtain ⟨he', hr'⟩ := mem_matched.mp (hperm.mem_iff.mpr hm')
    cases hr.symm.trans hr'
    cases (Members.get?_of_mem hnodup he).symm.trans (Members.get?_of_mem hnodup he')
    rfl
  rw [assignNamed_eq, heq, inTurn_served]
  simp only [get?_inOrder hentries]

end Tables

end SettingTree

end GraphShape
