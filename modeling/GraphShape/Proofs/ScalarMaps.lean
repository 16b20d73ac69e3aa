import GraphShape.Proofs.Entries
import GraphShape.ScalarMap
import Mathlib.Logic.Relation

/-!
# Which maps of custom scalars are accepted

A definition is checked at every place where it holds a schema, however deep. The key fact is that
the check of a schema is the check of its own keywords together with the checks of the schemas it
holds, so it passes exactly when every schema on a path from the definition is familiar.
-/

namespace GraphShape

namespace Schema

/-! ## Schemas in schemas -/

/-- A value under a keyword holds a schema: it is one, or has some among its elements or under its
names. -/
inductive HeldUnder (keyword : String) : Json → Json → Prop where
  | value {j : Json} (h : keyword ∈ ["items", "additionalProperties"]) : HeldUnder keyword j j
  | element {xs : List Json} {x : Json} (h : keyword ∈ ["oneOf", "anyOf", "allOf"])
      (hx : x ∈ xs) : HeldUnder keyword (.array xs) x
  | named {ms : Members Json} {name : String} {x : Json} (h : keyword = "properties")
      (hx : (name, x) ∈ ms) : HeldUnder keyword (.object ms) x

/-- The second is a schema one step below the first. -/
def Holds (j x : Json) : Prop :=
  ∃ (ms : Members Json) (keyword : String) (value : Json),
    j = .object ms ∧ (keyword, value) ∈ ms ∧ HeldUnder keyword value x

/-- A truth value, or an object with known keywords only. -/
def Familiar : Json → Prop
  | .bool _ => True
  | .object ms => ∀ keyword ∈ Members.names ms, keyword ∈ knownKeywords
  | _ => False

/-- Every schema on a path of steps from the definition is familiar. -/
def WellFormed (definition : Json) : Prop :=
  ∀ x, Relation.ReflTransGen Holds definition x → Familiar x

/-! ## One step of the check -/

theorem holdsSchema_iff (keyword : String) :
    holdsSchema keyword = true ↔ keyword ∈ ["items", "additionalProperties"] := by
  simp [holdsSchema]

theorem holdsList_iff (keyword : String) :
    holdsList keyword = true ↔ keyword ∈ ["oneOf", "anyOf", "allOf"] := by
  simp [holdsList, or_assoc]

theorem holdsNamed_iff (keyword : String) :
    holdsNamed keyword = true ↔ keyword = "properties" := by
  simp [holdsNamed]

theorem someForeignMember_eq_false_iff (ms : Members Json) :
    someForeignMember ms = false ↔
      ∀ m ∈ ms, m.1 ∈ knownKeywords ∧ isForeignUnder m.1 m.2 = false := by
  induction ms with
  | nil => simp [someForeignMember]
  | cons m ms ih => simp [someForeignMember, ih, isKnown]

theorem someForeignValue_eq_false_iff (ms : Members Json) :
    someForeignValue ms = false ↔ ∀ m ∈ ms, isForeign m.2 = false := by
  induction ms with
  | nil => simp [someForeignValue]
  | cons m ms ih => simp [someForeignValue, ih]

theorem someForeignItem_eq_false_iff (xs : List Json) :
    someForeignItem xs = false ↔ ∀ x ∈ xs, isForeign x = false := by
  induction xs with
  | nil => simp [someForeignItem]
  | cons x xs ih => simp [someForeignItem, ih]

theorem heldUnder_iff (keyword : String) (j x : Json) :
    HeldUnder keyword j x ↔ (holdsSchema keyword = true ∧ x = j) ∨
      (holdsList keyword = true ∧ ∃ xs, j = .array xs ∧ x ∈ xs) ∨
      (holdsNamed keyword = true ∧ ∃ ms name, j = .object ms ∧ (name, x) ∈ ms) := by
  rw [holdsSchema_iff, holdsList_iff, holdsNamed_iff]
  constructor
  · rintro (h | ⟨h, hx⟩ | ⟨h, hx⟩)
    · exact .inl ⟨h, rfl⟩
    · exact .inr (.inl ⟨h, _, rfl, hx⟩)
    · exact .inr (.inr ⟨h, _, _, rfl, hx⟩)
  · rintro (⟨h, rfl⟩ | ⟨h, xs, rfl, hx⟩ | ⟨h, ms, name, rfl, hx⟩)
    · exact .value h
    · exact .element h hx
    · exact .named h hx

theorem holds_nothing_else {keyword : String} (h : holdsSchema keyword = true) :
    holdsList keyword = false ∧ holdsNamed keyword = false := by
  simp only [holdsSchema, Bool.or_eq_true, decide_eq_true_eq] at h
  rcases h with rfl | rfl <;> decide

theorem isForeignUnder_eq_false_iff (keyword : String) (j : Json) :
    isForeignUnder keyword j = false ↔ ∀ x, HeldUnder keyword j x → isForeign x = false := by
  simp only [heldUnder_iff]
  by_cases hschema : holdsSchema keyword = true
  · have hother := holds_nothing_else hschema
    have hself : isForeignUnder keyword j = isForeign j := by
      cases j <;> simp [isForeignUnder, isForeign, hschema, hother]
    simp [hself, hschema, hother]
  · cases j with
    | array xs =>
      by_cases hlist : holdsList keyword = true
      · simp [isForeignUnder, hschema, hlist, someForeignItem_eq_false_iff]
      · simp [isForeignUnder, hschema, hlist]
    | object ms =>
      by_cases hnamed : holdsNamed keyword = true
      · simp [isForeignUnder, hschema, hnamed, someForeignValue_eq_false_iff]
        exact forall_comm
      · simp [isForeignUnder, hschema, hnamed]
    | null => simp [isForeignUnder, hschema]
    | bool b => simp [isForeignUnder, hschema]
    | number n => simp [isForeignUnder, hschema]
    | string s => simp [isForeignUnder, hschema]

theorem isForeign_eq_false_iff_step (j : Json) :
    isForeign j = false ↔ Familiar j ∧ ∀ x, Holds j x → isForeign x = false := by
  cases j with
  | object ms =>
    rw [isForeign, someForeignMember_eq_false_iff, Familiar]
    constructor
    · intro h
      constructor
      · intro keyword hkeyword
        obtain ⟨m, hm, rfl⟩ := List.mem_map.mp hkeyword
        exact (h m hm).1
      · rintro x ⟨_, keyword, value, ⟨⟩, hm, hx⟩
        exact (isForeignUnder_eq_false_iff _ _).mp (h _ hm).2 x hx
    · rintro ⟨hknown, hheld⟩ ⟨keyword, value⟩ hm
      refine ⟨hknown _ (Members.mem_names_of_mem hm), ?_⟩
      rw [isForeignUnder_eq_false_iff]
      intro x hx
      exact hheld x ⟨ms, keyword, value, rfl, hm, hx⟩
  | bool b => simp [isForeign, Familiar, Holds]
  | null => simp [isForeign, Familiar]
  | number n => simp [isForeign, Familiar]
  | string s => simp [isForeign, Familiar]
  | array xs => simp [isForeign, Familiar]

/-! ## All steps -/

theorem sizeOf_lt_of_mem {ms : Members Json} {name : String} {x : Json} (h : (name, x) ∈ ms) :
    sizeOf x < sizeOf (Json.object ms) := by
  have hpair := List.sizeOf_lt_of_mem h
  simp only [Prod.mk.sizeOf_spec] at hpair
  simp only [Json.object.sizeOf_spec]
  omega

theorem sizeOf_lt_of_holds {j x : Json} (h : Holds j x) : sizeOf x < sizeOf j := by
  obtain ⟨ms, keyword, value, rfl, hm, hx⟩ := h
  have hvalue := sizeOf_lt_of_mem hm
  cases hx with
  | value => exact hvalue
  | element _ hx =>
    have hitem := List.sizeOf_lt_of_mem hx
    simp only [Json.array.sizeOf_spec] at hvalue
    omega
  | named _ hx => exact Nat.lt_trans (sizeOf_lt_of_mem hx) hvalue

theorem wellFormed_iff_step (j : Json) :
    WellFormed j ↔ Familiar j ∧ ∀ x, Holds j x → WellFormed x := by
  constructor
  · intro h
    exact ⟨h j .refl, fun x hx y hy => h y (.head hx hy)⟩
  · rintro ⟨hself, hheld⟩ y hy
    rcases hy.cases_head with rfl | ⟨x, hx, hy⟩
    · exact hself
    · exact hheld x hx y hy

/-- The check passes exactly the well-formed definitions. -/
theorem isForeign_eq_false_iff (j : Json) : isForeign j = false ↔ WellFormed j := by
  rw [isForeign_eq_false_iff_step, wellFormed_iff_step]
  refine and_congr_right fun _ => forall_congr' fun x => imp_congr_right fun hx => ?_
  -- A schema is larger than one that it holds.
  have := sizeOf_lt_of_holds hx
  exact isForeign_eq_false_iff x
termination_by sizeOf j

theorem ofJson?_of_familiar {j : Json} (h : Familiar j) : ∃ s, ofJson? j = some s ∧ s.toJson = j := by
  cases j with
  | bool b => exact ⟨always b, rfl, rfl⟩
  | object ms => exact ⟨keywords ms, rfl, rfl⟩
  | null => exact h.elim
  | number n => exact h.elim
  | string s => exact h.elim
  | array xs => exact h.elim

end Schema

namespace ScalarMap

open Schema

/-! ## Maps -/

theorem readDefinition_of_wellFormed {s : Schema} (h : WellFormed s.toJson) :
    readDefinition s.toJson = .ok s := by
  rw [readDefinition, (isForeign_eq_false_iff _).mpr h, ofJson?_toJson]
  rfl

theorem readDefinition_of_not_wellFormed {definition : Json} (h : ¬ WellFormed definition) :
    readDefinition definition = .error (.badDefinition definition) := by
  rw [← isForeign_eq_false_iff, Bool.not_eq_false] at h
  rw [readDefinition, h]
  rfl

theorem ofMembers_of_wellFormed {definitions : Members Json}
    (h : ∀ m ∈ definitions, WellFormed m.2) :
    ∃ map : ScalarMap, ofMembers definitions = .ok map ∧
      map.map (fun m => (m.1, m.2.toJson)) = definitions := by
  induction definitions with
  | nil => exact ⟨[], rfl, rfl⟩
  | cons m definitions ih =>
    obtain ⟨name, definition⟩ := m
    obtain ⟨hwell, hmore⟩ := List.forall_mem_cons.mp h
    obtain ⟨s, -, rfl⟩ := ofJson?_of_familiar (hwell _ .refl)
    obtain ⟨map, hmap, rfl⟩ := ih hmore
    refine ⟨(name, s) :: map, ?_, rfl⟩
    rw [ofMembers, readDefinition_of_wellFormed hwell, hmap]

theorem ofMembers_of_first {before after : Members Json} {name : String} {bad : Json}
    (hbefore : ∀ m ∈ before, WellFormed m.2) (hbad : ¬ WellFormed bad) :
    ofMembers (before ++ (name, bad) :: after) = .error (.badDefinition bad) := by
  induction before with
  | nil => rw [List.nil_append, ofMembers, readDefinition_of_not_wellFormed hbad]
  | cons m before ih =>
    obtain ⟨other, definition⟩ := m
    obtain ⟨hwell, hmore⟩ := List.forall_mem_cons.mp hbefore
    obtain ⟨s, -, rfl⟩ := ofJson?_of_familiar (hwell _ .refl)
    rw [List.cons_append, ofMembers, readDefinition_of_wellFormed hwell, ih hmore]

/-- The first of the members whose definition is not well-formed. -/
def FirstBad (ms : Members Json) (bad : Json) : Prop :=
  ∃ before name after, ms = before ++ (name, bad) :: after ∧
    (∀ m ∈ before, WellFormed m.2) ∧ ¬ WellFormed bad

theorem wellFormed_or_firstBad (ms : Members Json) :
    (∀ m ∈ ms, WellFormed m.2) ∨ ∃ bad, FirstBad ms bad := by
  simp only [FirstBad, ← isForeign_eq_false_iff]
  cases h : ms.find? (fun m => isForeign m.2) with
  | none =>
    left
    intro m hm
    simpa using List.find?_eq_none.mp h m hm
  | some m =>
    obtain ⟨hbad, before, after, rfl, hbefore⟩ := List.find?_eq_some_iff_append.mp h
    exact .inr ⟨m.2, before, m.1, after, rfl, by simpa using hbefore, by simpa using hbad⟩

theorem get?_map_toJson (map : ScalarMap) (name : String) :
    Members.get? (map.map (fun m => (m.1, m.2.toJson))) name =
      (Members.get? map name).map toJson := by
  induction map with
  | nil => rfl
  | cons m map ih =>
    obtain ⟨other, s⟩ := m
    by_cases h : other = name
    · simp [Members.get?, h]
    · simpa [Members.get?, h] using ih

/-! ## Texts -/

section Texts

variable {text : String} {ms : Members Json}

theorem parse_of_object (h : Json.parse text = .ok (.object ms)) : parse text = ofMembers ms := by
  rw [parse, (Json.parse_eq_object_iff text ms).mp h]

theorem parse_of_no_object (h : ∀ ms, Json.parse text ≠ .ok (.object ms)) :
    ∃ e, parse text = .error (.notAnObject e) := by
  cases hobject : Json.parseObject text with
  | error e => exact ⟨e, by rw [parse, hobject]⟩
  | ok ms => exact absurd ((Json.parse_eq_object_iff text ms).mpr hobject) (h ms)

theorem parse_of_firstBad {bad : Json} (h : Json.parse text = .ok (.object ms))
    (hbad : FirstBad ms bad) : parse text = .error (.badDefinition bad) := by
  obtain ⟨before, name, after, rfl, hbefore, hbad⟩ := hbad
  rw [parse_of_object h, ofMembers_of_first hbefore hbad]

theorem parse_of_wellFormed (h : Json.parse text = .ok (.object ms))
    (hall : ∀ m ∈ ms, WellFormed m.2) :
    ∃ map : ScalarMap, parse text = .ok map ∧ map.map (fun m => (m.1, m.2.toJson)) = ms := by
  rw [parse_of_object h]
  exact ofMembers_of_wellFormed hall

theorem parse_cases (text : String) :
    ((∃ e, parse text = .error (.notAnObject e)) ∧ ∀ ms, Json.parse text ≠ .ok (.object ms)) ∨
    ∃ ms, Json.parse text = .ok (.object ms) ∧
      ((∃ bad, parse text = .error (.badDefinition bad) ∧ FirstBad ms bad) ∨
        ∃ map : ScalarMap, parse text = .ok map ∧ (∀ m ∈ ms, WellFormed m.2) ∧
          map.map (fun m => (m.1, m.2.toJson)) = ms) := by
  by_cases hobject : ∃ ms, Json.parse text = .ok (.object ms)
  · obtain ⟨ms, hms⟩ := hobject
    refine .inr ⟨ms, hms, ?_⟩
    rcases wellFormed_or_firstBad ms with hall | ⟨bad, hbad⟩
    · obtain ⟨map, hmap, hdefines⟩ := parse_of_wellFormed hms hall
      exact .inr ⟨map, hmap, hall, hdefines⟩
    · exact .inl ⟨bad, parse_of_firstBad hms hbad, hbad⟩
  · have hnone := not_exists.mp hobject
    exact .inl ⟨parse_of_no_object hnone, hnone⟩

theorem exists_map_iff : (∃ map, parse text = .ok map) ↔
    ∃ ms, Json.parse text = .ok (.object ms) ∧ ∀ m ∈ ms, WellFormed m.2 := by
  constructor
  · rintro ⟨map, hmap⟩
    rcases parse_cases text with ⟨⟨e, herror⟩, -⟩ | ⟨ms, hms, ⟨bad, herror, -⟩ | ⟨_, -, hall, -⟩⟩
    · cases hmap.symm.trans herror
    · cases hmap.symm.trans herror
    · exact ⟨ms, hms, hall⟩
  · rintro ⟨ms, hms, hall⟩
    obtain ⟨map, hmap, -⟩ := parse_of_wellFormed hms hall
    exact ⟨map, hmap⟩

theorem exists_notAnObject_iff : (∃ e, parse text = .error (.notAnObject e)) ↔
    ∀ ms, Json.parse text ≠ .ok (.object ms) := by
  refine ⟨?_, parse_of_no_object⟩
  rintro ⟨e, he⟩
  rcases parse_cases text with ⟨-, hnone⟩ | ⟨ms, hms, ⟨bad, herror, -⟩ | ⟨map, hmap, -⟩⟩
  · exact hnone
  · cases he.symm.trans herror
  · cases he.symm.trans hmap

theorem badDefinition_iff (bad : Json) : parse text = .error (.badDefinition bad) ↔
    ∃ ms, Json.parse text = .ok (.object ms) ∧ FirstBad ms bad := by
  constructor
  · intro h
    rcases parse_cases text with ⟨⟨e, herror⟩, -⟩ | ⟨ms, hms, ⟨bad', hbad, hfirst⟩ | ⟨map, hmap, -⟩⟩
    · cases h.symm.trans herror
    · cases h.symm.trans hbad
      exact ⟨ms, hms, hfirst⟩
    · cases h.symm.trans hmap
  · rintro ⟨ms, hms, hfirst⟩
    exact parse_of_firstBad hms hfirst

theorem get?_iff_isLast {map : ScalarMap} {found : List (String × Json)}
    (hmap : parse text = .ok map) (hms : Json.parse text = .ok (.object (Members.ofList found)))
    (name : String) (definition : Json) :
    (Members.get? map name).map toJson = some definition ↔
      Members.IsLast found name definition := by
  rw [← Members.get?_ofList, ← get?_map_toJson]
  rcases parse_cases text with ⟨-, hnone⟩ | ⟨ms, hms', ⟨bad, herror, -⟩ | ⟨map', hmap', -, hdefines⟩⟩
  · exact absurd hms (hnone _)
  · cases hmap.symm.trans herror
  · cases hmap.symm.trans hmap'
    cases hms.symm.trans hms'
    rw [hdefines]

end Texts

/-- **Scalar maps.** A text is accepted just when every definition in it is well-formed. -/
theorem accepts_well_formed (text : String) :
    ((∃ map, parse text = .ok map) ↔
      ∃ ms, Json.parse text = .ok (.object ms) ∧ ∀ m ∈ ms, WellFormed m.2) ∧
    ((∃ e, parse text = .error (.notAnObject e)) ↔ ∀ ms, Json.parse text ≠ .ok (.object ms)) ∧
    (∀ bad, parse text = .error (.badDefinition bad) ↔
      ∃ ms, Json.parse text = .ok (.object ms) ∧ FirstBad ms bad) ∧
    (∀ ms, Json.parse text = .ok (.object ms) → ∃ found, Json.entries text = .ok found ∧
      Members.names ms = dropRepeats (Members.names found) ∧
      (∀ name definition, Members.get? ms name = some definition ↔
        Members.IsLast found name definition) ∧
      ∀ map, parse text = .ok map → ∀ name,
        (∀ definition, (Members.get? map name).map toJson = some definition ↔
          Members.IsLast found name definition) ∧
        (name ∉ Members.names found → Members.get? map name = none)) ∧
    ∀ definition, isForeign definition = false →
      ∃ s, ofJson? definition = some s ∧ s.toJson = definition := by
  refine ⟨exists_map_iff, exists_notAnObject_iff, badDefinition_iff, ?_, ?_⟩
  · intro ms hms
    obtain ⟨found, hfound, rfl⟩ :=
      (Json.parseObject_eq_ok_iff text ms).mp ((Json.parse_eq_object_iff text ms).mp hms)
    refine ⟨found, hfound, Members.names_ofList found, Members.get?_ofList found, ?_⟩
    intro map hmap name
    have hlast := get?_iff_isLast hmap hms name
    refine ⟨hlast, fun hname => ?_⟩
    cases hget : Members.get? map name with
    | none => rfl
    | some s =>
      obtain ⟨before, after, rfl, -⟩ := (hlast s.toJson).mp (by rw [hget]; rfl)
      rw [Members.names_append] at hname
      exact absurd (List.mem_append_right _ List.mem_cons_self) hname
  · intro definition h
    exact ofJson?_of_familiar ((isForeign_eq_false_iff _).mp h _ .refl)

/-- A scalar that is defined before and after another, neither of them well in the end. -/
def redefined : String := "\x7b\"A\":true,\"B\":0,\"A\":\x7b\"items\":0\x7d\x7d"

theorem accepts_well_formed_redefined :
    parse redefined = .error (.badDefinition (.object [("items", .number (.whole 0))])) := by
  have hread : Json.parse redefined = .ok (.object
      [("A", .object [("items", .number (.whole 0))]), ("B", .number (.whole 0))]) := by rfl
  have hbad : ¬ WellFormed (.object [("items", .number (.whole 0))]) := by
    rw [← isForeign_eq_false_iff]
    decide
  exact ((accepts_well_formed redefined).2.2.1 _).mpr ⟨_, hread, [], "A", _, rfl, by simp, hbad⟩

end ScalarMap

end GraphShape
