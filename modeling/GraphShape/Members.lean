/-!
# Ordered members

Names with values, in order, as in a JSON object or a set of definitions. The key fact is that
putting a value under a name that is already there keeps the name in its place, so a name never
occurs twice and the order is the order of first occurrences.
-/

namespace GraphShape

/-- Values under names, in order. -/
abbrev Members (α : Type) := List (String × α)

namespace Members

variable {α : Type}

def names (ms : Members α) : List String := ms.map Prod.fst

def get? (ms : Members α) (name : String) : Option α :=
  match ms with
  | [] => none
  | (n, a) :: rest => if n = name then some a else get? rest name

def has (ms : Members α) (name : String) : Bool := (ms.get? name).isSome

/-- The value goes to the place of its name, or to the end when the name is new. -/
def put (ms : Members α) (name : String) (a : α) : Members α :=
  match ms with
  | [] => [(name, a)]
  | (n, b) :: rest => if n = name then (n, a) :: rest else (n, b) :: put rest name a

/-- Like `put`, but a value that is already there stays. -/
def putNew (ms : Members α) (name : String) (a : α) : Members α :=
  if ms.has name then ms else ms.put name a

/-- One pair after the other. -/
def ofList (pairs : List (String × α)) : Members α :=
  pairs.foldl (fun ms (n, a) => put ms n a) []

def erase (ms : Members α) (name : String) : Members α := ms.filter (fun m => m.1 ≠ name)

@[simp] theorem names_nil : names ([] : Members α) = [] := rfl

@[simp] theorem names_cons (n : String) (a : α) (ms : Members α) :
    names ((n, a) :: ms) = n :: names ms := rfl

theorem get?_eq_none_iff (ms : Members α) (name : String) :
    ms.get? name = none ↔ name ∉ ms.names := by
  induction ms with
  | nil => simp [get?]
  | cons m ms ih =>
    obtain ⟨n, a⟩ := m
    by_cases h : n = name
    · simp [get?, h]
    · simp [get?, h, ih, Ne.symm h]

theorem get?_put_self (ms : Members α) (name : String) (a : α) :
    (ms.put name a).get? name = some a := by
  induction ms with
  | nil => simp [put, get?]
  | cons m ms ih =>
    obtain ⟨n, b⟩ := m
    by_cases h : n = name
    · simp [put, get?, h]
    · simp [put, get?, h, ih]

theorem get?_put_of_ne (ms : Members α) {name other : String} (a : α) (h : other ≠ name) :
    (ms.put name a).get? other = ms.get? other := by
  induction ms with
  | nil => simp [put, get?, Ne.symm h]
  | cons m ms ih =>
    obtain ⟨n, b⟩ := m
    by_cases hn : n = name
    · subst hn
      simp [put, get?, Ne.symm h]
    · by_cases ho : n = other
      · subst ho
        simp [put, get?, h]
      · simp [put, get?, hn, ho, ih]

/-- A name keeps its place, and a new one goes to the end. -/
theorem names_put (ms : Members α) (name : String) (a : α) :
    names (ms.put name a) = if name ∈ names ms then names ms else names ms ++ [name] := by
  induction ms with
  | nil => simp [put]
  | cons m ms ih =>
    obtain ⟨n, b⟩ := m
    by_cases h : n = name
    · simp [put, h]
    · have hn : name ≠ n := Ne.symm h
      by_cases hm : name ∈ names ms
      · simp [put, h, ih, hm]
      · simp [put, h, ih, hm, hn]

theorem nodup_names_put {ms : Members α} (name : String) (a : α) (h : (names ms).Nodup) :
    (names (ms.put name a)).Nodup := by
  rw [names_put]
  split
  · exact h
  · next hm =>
    rw [List.nodup_append]
    refine ⟨h, by simp, ?_⟩
    intro x hx y hy hxy
    simp only [List.mem_singleton] at hy
    exact hm (hy ▸ hxy ▸ hx)

/-! ## Places and lookups -/

theorem has_iff (ms : Members α) (name : String) : ms.has name = true ↔ name ∈ names ms := by
  rw [has, Option.isSome_iff_ne_none, ne_eq, get?_eq_none_iff, Decidable.not_not]

theorem put_of_not_mem {ms : Members α} {name : String} (a : α) (h : name ∉ names ms) :
    ms.put name a = ms ++ [(name, a)] := by
  induction ms with
  | nil => rfl
  | cons m ms ih =>
    obtain ⟨n, b⟩ := m
    simp only [names_cons, List.mem_cons, not_or] at h
    rw [put, if_neg (Ne.symm h.1), ih h.2, List.cons_append]

theorem putNew_of_mem {ms : Members α} {name : String} (a : α) (h : name ∈ names ms) :
    ms.putNew name a = ms := by
  rw [putNew, if_pos ((has_iff ms name).mpr h)]

theorem putNew_of_not_mem {ms : Members α} {name : String} (a : α) (h : name ∉ names ms) :
    ms.putNew name a = ms ++ [(name, a)] := by
  rw [putNew, if_neg (by rwa [has_iff]), put_of_not_mem a h]

theorem mem_of_get? {ms : Members α} {name : String} {a : α} (h : ms.get? name = some a) :
    (name, a) ∈ ms := by
  induction ms with
  | nil => simp [get?] at h
  | cons m ms ih =>
    obtain ⟨n, b⟩ := m
    rw [get?] at h
    split at h
    · rename_i hn
      rw [← hn, ← Option.some.inj h]
      exact List.mem_cons_self
    · exact List.mem_cons_of_mem _ (ih h)

theorem mem_put {ms : Members α} {name : String} {a : α} {m : String × α}
    (h : m ∈ ms.put name a) : m = (name, a) ∨ m ∈ ms := by
  induction ms with
  | nil => exact Or.inl (List.mem_singleton.mp h)
  | cons first rest ih =>
    obtain ⟨n, b⟩ := first
    rw [put] at h
    split at h
    · rename_i hn
      rcases List.mem_cons.mp h with rfl | h
      · exact Or.inl (by rw [hn])
      · exact Or.inr (List.mem_cons_of_mem _ h)
    · rcases List.mem_cons.mp h with rfl | h
      · exact Or.inr List.mem_cons_self
      · exact (ih h).imp_right (List.mem_cons_of_mem _)

theorem mem_names_of_mem {ms : Members α} {m : String × α} (h : m ∈ ms) : m.1 ∈ names ms :=
  List.mem_map_of_mem h

theorem mem_names_of_get? {ms : Members α} {name : String} {a : α} (h : ms.get? name = some a) :
    name ∈ names ms := mem_names_of_mem (mem_of_get? h)

/-- Where no name occurs twice, every value is found under its name. -/
theorem get?_of_mem {ms : Members α} {name : String} {a : α} (hn : (names ms).Nodup)
    (h : (name, a) ∈ ms) : ms.get? name = some a := by
  induction ms with
  | nil => simp at h
  | cons m ms ih =>
    obtain ⟨n, b⟩ := m
    rw [names_cons, List.nodup_cons] at hn
    rw [get?]
    rcases List.mem_cons.mp h with h | h
    · obtain ⟨rfl, rfl⟩ := Prod.mk.inj h
      rw [if_pos rfl]
    · rw [if_neg, ih hn.2 h]
      rintro rfl
      exact hn.1 (mem_names_of_mem h)

theorem get?_eq_some_iff {ms : Members α} (hn : (names ms).Nodup) {name : String} {a : α} :
    ms.get? name = some a ↔ (name, a) ∈ ms := ⟨mem_of_get?, get?_of_mem hn⟩

theorem names_append (ms others : Members α) : names (ms ++ others) = names ms ++ names others :=
  List.map_append

end Members

end GraphShape
