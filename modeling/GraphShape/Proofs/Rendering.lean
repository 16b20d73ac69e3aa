import GraphShape.Proofs.ReadBack
import GraphShape.Settings.Config
import Mathlib.Data.List.Basic

/-!
# Rendered documents

A rendered document is read back with the keys of its schemas in another order and nothing else
changed, and what is read is rendered as the same text. The key fact is that sorting by rank keeps
the members of each rank in their order, so a second sort finds nothing to do. It does not look at
values either, so they may be arranged before it or after it.
-/

namespace GraphShape

namespace Schema

/-! ## Sorting by rank -/

section Ranks

variable {α : Type} (f : α → Nat) (l : List α)

theorem filter_flatMap_range (n r : Nat) :
    ((List.range n).flatMap (fun k => l.filter (f · == k))).filter (f · == r) =
      if r < n then l.filter (f · == r) else [] := by
  induction n with
  | zero => simp
  | succ n ih =>
    rw [List.range_succ, List.flatMap_append, List.filter_append, ih, List.flatMap_singleton,
      List.filter_filter]
    by_cases hr : r = n
    · simp [hr]
    · have hnone : l.filter (fun a => f a == r && f a == n) = [] :=
        List.filter_eq_nil_iff.mpr fun a _ => by simp; omega
      rw [hnone, List.append_nil]
      simp only [show r < n + 1 ↔ r < n by omega]

theorem flatMap_range_perm (n : Nat) :
    ((List.range n).flatMap (fun k => l.filter (f · == k))).Perm (l.filter (f · < n)) := by
  induction n with
  | zero => simp
  | succ n ih =>
    rw [List.range_succ, List.flatMap_append, List.flatMap_singleton]
    refine (ih.append_right _).trans ?_
    have hsplit := List.filter_append_perm (fun a => f a < n) (l.filter (fun a => f a < n + 1))
    rw [List.filter_filter, List.filter_filter] at hsplit
    have hlow : l.filter (fun a => decide (f a < n) && decide (f a < n + 1)) =
        l.filter (fun a => f a < n) :=
      List.filter_congr fun a _ => by rw [Bool.eq_iff_iff]; simp; omega
    have hlast : l.filter (fun a => !decide (f a < n) && decide (f a < n + 1)) =
        l.filter (fun a => f a == n) :=
      List.filter_congr fun a _ => by rw [Bool.eq_iff_iff]; simp; omega
    rwa [hlow, hlast] at hsplit

end Ranks

theorem rank_lt (keyword : String) : rank keyword < leading.length + 1 + trailing.length := by
  unfold rank
  split
  · next i hi =>
    obtain ⟨h, -⟩ := List.idxOf?_eq_some_iff.mp hi
    omega
  · split
    · next i hi =>
      obtain ⟨h, -⟩ := List.idxOf?_eq_some_iff.mp hi
      omega
    · omega

theorem sortMembers_perm (ms : List (String × Json)) : (sortMembers ms).Perm ms := by
  have h := flatMap_range_perm (fun m : String × Json => rank m.1) ms
    (leading.length + 1 + trailing.length)
  rwa [List.filter_eq_self.mpr (fun m _ => by simpa using rank_lt m.1)] at h

theorem filter_sortMembers (ms : List (String × Json)) {r : Nat}
    (h : r < leading.length + 1 + trailing.length) :
    (sortMembers ms).filter (fun m => rank m.1 == r) = ms.filter (fun m => rank m.1 == r) := by
  rw [sortMembers, filter_flatMap_range (fun m : String × Json => rank m.1), if_pos h]

@[simp] theorem sortMembers_sortMembers (ms : List (String × Json)) :
    sortMembers (sortMembers ms) = sortMembers ms :=
  List.flatMap_congr fun _ hr => filter_sortMembers ms (List.mem_range.mp hr)

theorem arrangeMembers_eq_map (ms : List (String × Json)) :
    arrangeMembers ms = ms.map (fun m => (m.1, arrangeUnder m.1 m.2)) := by
  induction ms with
  | nil => rfl
  | cons m ms ih =>
    obtain ⟨k, v⟩ := m
    rw [arrangeMembers, ih, List.map_cons]

theorem arrangeMembers_sortMembers (ms : List (String × Json)) :
    arrangeMembers (sortMembers ms) = sortMembers (arrangeMembers ms) := by
  rw [arrangeMembers_eq_map, arrangeMembers_eq_map, sortMembers, sortMembers, List.map_flatMap]
  simp only [List.filter_map]
  rfl

/-! ## Arranging twice -/

mutual

theorem arrange_arrange : ∀ j : Json, arrange (arrange j) = arrange j
  | .object ms => by
    simp only [arrange, arrangeMembers_sortMembers, sortMembers_sortMembers,
      arrangeMembers_arrangeMembers ms]
  | .array xs => by simp only [arrange, arrangeItems_arrangeItems xs]
  | .null | .bool _ | .number _ | .string _ => rfl

theorem arrangeMembers_arrangeMembers :
    ∀ ms : List (String × Json), arrangeMembers (arrangeMembers ms) = arrangeMembers ms
  | [] => rfl
  | (k, v) :: ms => by
    simp only [arrangeMembers, arrangeUnder_arrangeUnder k v, arrangeMembers_arrangeMembers ms]

theorem arrangeUnder_arrangeUnder (k : String) :
    ∀ j : Json, arrangeUnder k (arrangeUnder k j) = arrangeUnder k j
  | .object ms => by
    by_cases hv : isVerbatim k
    · simp only [arrangeUnder, if_pos hv]
    · by_cases hn : namesSchemas k
      · simp only [arrangeUnder, if_neg hv, if_pos hn, arrangeValues_arrangeValues ms]
      · simp only [arrangeUnder, if_neg hv, if_neg hn, arrangeMembers_sortMembers,
          sortMembers_sortMembers, arrangeMembers_arrangeMembers ms]
  | .array xs => by
    by_cases hv : isVerbatim k
    · simp only [arrangeUnder, if_pos hv]
    · simp only [arrangeUnder, if_neg hv, arrangeItems_arrangeItems xs]
  | .null | .bool _ | .number _ | .string _ => rfl

theorem arrangeValues_arrangeValues :
    ∀ ms : List (String × Json), arrangeValues (arrangeValues ms) = arrangeValues ms
  | [] => rfl
  | (k, v) :: ms => by
    simp only [arrangeValues, arrange_arrange v, arrangeValues_arrangeValues ms]

theorem arrangeItems_arrangeItems : ∀ xs : List Json, arrangeItems (arrangeItems xs) = arrangeItems xs
  | [] => rfl
  | x :: xs => by simp only [arrangeItems, arrange_arrange x, arrangeItems_arrangeItems xs]

end

/-! ## What arranging changes -/

/-- How the keys of a value may be ordered. -/
inductive Role where
  /-- It is a schema. -/
  | schema
  /-- Its keys are names of schemas. -/
  | named
  /-- It is written as it is. -/
  | verbatim

/-- The role of the value that a schema has under a keyword. -/
def Role.under (keyword : String) : Role :=
  if keyword = "examples" ∨ keyword = "default" ∨ keyword.startsWith "x-" then .verbatim
  else if keyword ∈ ["properties", "patternProperties", "dependentSchemas", "$defs", "definitions"]
  then .named
  else .schema

mutual

/-- The second value is the first up to the order of the keys of schemas. -/
inductive Reordered : Role → Json → Json → Prop
  | atom {role : Role} {j : Json} (hm : j.members? = none) (hi : j.items? = none) :
      Reordered role j j
  | verbatim {j : Json} : Reordered .verbatim j j
  | array {role : Role} {xs ys : List Json} (hrole : role ≠ .verbatim)
      (h : ReorderedItems xs ys) : Reordered role (.array xs) (.array ys)
  | named {ms ns : Members Json} (h : ReorderedMembers (fun _ => .schema) ms ns) :
      Reordered .named (.object ms) (.object ns)
  | schema {ms ns ns' : Members Json} (h : ReorderedMembers Role.under ms ns)
      (hperm : ns.Perm ns') : Reordered .schema (.object ms) (.object ns')

inductive ReorderedItems : List Json → List Json → Prop
  | nil : ReorderedItems [] []
  | cons {x y : Json} {xs ys : List Json} (hx : Reordered .schema x y)
      (hxs : ReorderedItems xs ys) : ReorderedItems (x :: xs) (y :: ys)

/-- The keys are the same in the same order. -/
inductive ReorderedMembers : (String → Role) → Members Json → Members Json → Prop
  | nil {role : String → Role} : ReorderedMembers role [] []
  | cons {role : String → Role} {k : String} {x y : Json} {ms ns : Members Json}
      (hx : Reordered (role k) x y) (hms : ReorderedMembers role ms ns) :
      ReorderedMembers role ((k, x) :: ms) ((k, y) :: ns)

end

theorem ReorderedMembers.names_eq {role : String → Role} {ms ns : Members Json} :
    ReorderedMembers role ms ns → Members.names ms = Members.names ns
  | .nil => rfl
  | .cons _ hms => by rw [Members.names_cons, Members.names_cons, hms.names_eq]

theorem Role.under_eq (k : String) :
    Role.under k = if isVerbatim k then .verbatim else if namesSchemas k then .named else .schema := by
  simp [Role.under, isVerbatim, namesSchemas, or_assoc]

mutual

theorem arrange_reordered : ∀ j : Json, Reordered .schema j (arrange j)
  | .object ms => .schema (arrangeMembers_reordered ms) (sortMembers_perm _).symm
  | .array xs => .array (by simp) (arrangeItems_reordered xs)
  | .null | .bool _ | .number _ | .string _ => .atom rfl rfl

theorem arrangeMembers_reordered :
    ∀ ms : List (String × Json), ReorderedMembers Role.under ms (arrangeMembers ms)
  | [] => .nil
  | (k, v) :: ms => .cons (arrangeUnder_reordered k v) (arrangeMembers_reordered ms)

theorem arrangeUnder_reordered (k : String) : ∀ j : Json, Reordered (.under k) j (arrangeUnder k j)
  | .object ms => by
    rw [arrangeUnder, Role.under_eq]
    split
    · exact .verbatim
    · split
      · exact .named (arrangeValues_reordered ms)
      · exact .schema (arrangeMembers_reordered ms) (sortMembers_perm _).symm
  | .array xs => by
    rw [arrangeUnder, Role.under_eq]
    split
    · exact .verbatim
    · refine .array ?_ (arrangeItems_reordered xs)
      split <;> simp
  | .null | .bool _ | .number _ | .string _ => .atom rfl rfl

theorem arrangeValues_reordered :
    ∀ ms : List (String × Json), ReorderedMembers (fun _ => .schema) ms (arrangeValues ms)
  | [] => .nil
  | (_, v) :: ms => .cons (arrange_reordered v) (arrangeValues_reordered ms)

theorem arrangeItems_reordered : ∀ xs : List Json, ReorderedItems xs (arrangeItems xs)
  | [] => .nil
  | x :: xs => .cons (arrange_reordered x) (arrangeItems_reordered xs)

end

/-! ## What is read back either way -/

theorem exactMembers_iff (ms : List (String × Json)) :
    Json.ExactMembers ms ↔ ∀ m ∈ ms, m.2.Exact := by
  induction ms with
  | nil => simp [Json.ExactMembers]
  | cons m ms ih => simp [Json.ExactMembers, ih]

theorem nestingMembers_le_iff (ms : List (String × Json)) (d : Nat) :
    Json.nestingMembers ms ≤ d ↔ ∀ m ∈ ms, m.2.nesting ≤ d := by
  induction ms with
  | nil => simp [Json.nestingMembers]
  | cons m ms ih => rw [Json.nestingMembers, Nat.max_le, List.forall_mem_cons, ih]

mutual

theorem Reordered.exact {role : Role} {x y : Json} : Reordered role x y → x.Exact → y.Exact
  | .atom .., hx => hx
  | .verbatim, hx => hx
  | .array _ h, hx => h.exact hx
  | .named h, hx => by
    obtain ⟨hnames, hms⟩ := hx
    exact ⟨h.names_eq ▸ hnames, h.exact hms⟩
  | .schema h hperm, hx => by
    obtain ⟨hnames, hms⟩ := hx
    have hns := (exactMembers_iff _).mp (h.exact hms)
    refine ⟨?_, (exactMembers_iff _).mpr fun m hm => hns m (hperm.mem_iff.mpr hm)⟩
    rw [h.names_eq] at hnames
    exact (hperm.map Prod.fst).nodup_iff.mp hnames

theorem ReorderedItems.exact {xs ys : List Json} :
    ReorderedItems xs ys → Json.ExactItems xs → Json.ExactItems ys
  | .nil, _ => trivial
  | .cons hx hxs, ⟨h, hs⟩ => ⟨hx.exact h, hxs.exact hs⟩

theorem ReorderedMembers.exact {role : String → Role} {ms ns : Members Json} :
    ReorderedMembers role ms ns → Json.ExactMembers ms → Json.ExactMembers ns
  | .nil, _ => trivial
  | .cons hx hms, ⟨h, hs⟩ => ⟨hx.exact h, hms.exact hs⟩

end

mutual

theorem Reordered.nesting_le {role : Role} {x y : Json} : Reordered role x y → y.nesting ≤ x.nesting
  | .atom .. => Nat.le_refl _
  | .verbatim => Nat.le_refl _
  | .array _ h => Nat.succ_le_succ h.nesting_le
  | .named h => Nat.succ_le_succ h.nesting_le
  | .schema h hperm => by
    have hns := (nestingMembers_le_iff _ _).mp h.nesting_le
    refine Nat.succ_le_succ ((nestingMembers_le_iff _ _).mpr ?_)
    exact fun m hm => hns m (hperm.mem_iff.mpr hm)

theorem ReorderedItems.nesting_le {xs ys : List Json} :
    ReorderedItems xs ys → Json.nestingItems ys ≤ Json.nestingItems xs
  | .nil => Nat.le_refl _
  | .cons hx hxs => by
    have := hx.nesting_le
    have := hxs.nesting_le
    simp only [Json.nestingItems]
    omega

theorem ReorderedMembers.nesting_le {role : String → Role} {ms ns : Members Json} :
    ReorderedMembers role ms ns → Json.nestingMembers ns ≤ Json.nestingMembers ms
  | .nil => Nat.le_refl _
  | .cons hx hms => by
    have := hx.nesting_le
    have := hms.nesting_le
    simp only [Json.nestingMembers]
    omega

end

theorem exists_toJson_eq_arrange (s : Schema) : ∃ t : Schema, t.toJson = arrange s.toJson := by
  cases s with
  | always b => exact ⟨always b, rfl⟩
  | keywords ms => exact ⟨keywords (sortMembers (arrangeMembers ms)), rfl⟩

end Schema

open Schema in
/-- **Rendering round-trips.** A document is read back as it was, up to the order of its keys. -/
theorem Output.render_round_trip (s : Schema) (hs : s.toJson.Exact) (hnesting : s.toJson.nesting < 128) :
    ∃ t : Schema, (∀ o : Output, Json.parse (o.render s) = .ok t.toJson) ∧
      Reordered .schema s.toJson t.toJson ∧ ∀ o : Output, o.render t = o.render s := by
  have h := arrange_reordered s.toJson
  obtain ⟨t, ht⟩ := exists_toJson_eq_arrange s
  refine ⟨t, fun o => ?_, ht ▸ h, fun o => ?_⟩
  · rw [ht]
    exact Json.parse_text o.style (h.exact hs) (Nat.lt_of_le_of_lt h.nesting_le hnesting)
  · rw [Output.render, Output.render, Schema.render, Schema.render, ht, arrange_arrange]

/-- Keywords out of order, and as names and inside a default as well. -/
def Schema.shuffled : Schema := .keywords
  [("required", Json.strings ["type"]),
    ("$defs", .object [("Page", .object [("x-page", .null), ("title", .string "A \"Page\"\n\u0007")])]),
    ("default", .object [("type", .number (.whole (-9223372036854775808))), ("$id", .array [])]),
    ("properties", .object
      [("type", .object [("maximum", .number (.whole 18446744073709551615)), ("type", .string "integer")]),
        ("$id", .bool true)]),
    ("type", .string "object")]

theorem Output.render_round_trip_shuffled :
    Schema.shuffled.toJson.Exact ∧ Schema.shuffled.toJson.nesting = 3 ∧
      ∃ t : Schema, (∀ o : Output, Json.parse (o.render Schema.shuffled) = .ok t.toJson) ∧
        Schema.Reordered .schema Schema.shuffled.toJson t.toJson ∧
        ∀ o : Output, o.render t = o.render Schema.shuffled := by
  have hexact : Schema.shuffled.toJson.Exact := by
    simp [Schema.shuffled, Schema.toJson, Json.strings, Json.Exact, Json.ExactMembers,
      Json.ExactItems, Json.Number.Exact]
  exact ⟨hexact, by decide, Output.render_round_trip _ hexact (by decide)⟩

end GraphShape
