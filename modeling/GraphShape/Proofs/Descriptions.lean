import GraphShape.Proofs.Fragments
import GraphShape.Proofs.Linking
import GraphShape.Proofs.Skeletons

/-!
# What descriptions add

The wish for descriptions adds them to shapes and properties and changes nothing else. The key fact
is that a description is the last thing given to a schema and never replaces one, so taking it away
leaves what a conversion without the wish gives.
-/

namespace GraphShape

namespace Members

variable {α β : Type} (ms : Members α) (name : String)

theorem erase_cons (n : String) (b : α) (rest : Members α) :
    erase ((n, b) :: rest) name = if n = name then erase rest name else (n, b) :: erase rest name := by
  by_cases h : n = name <;> simp [erase, h]

theorem erase_put_of_ne {other : String} (a : α) (h : name ≠ other) :
    erase (put ms name a) other = put (erase ms other) name a := by
  induction ms with
  | nil => simp [erase, put, h]
  | cons m rest ih =>
    obtain ⟨n, b⟩ := m
    by_cases hn : n = name
    · subst hn
      simp [erase_cons, put, h]
    · by_cases ho : n = other
      · simp [erase_cons, put, ho, ih, Ne.symm h]
      · simp [erase_cons, put, hn, ho, ih]

theorem erase_putNew_self (a : α) : erase (putNew ms name a) name = erase ms name := by
  by_cases h : name ∈ names ms
  · rw [putNew_of_mem a h]
  · rw [putNew_of_not_mem a h]
    simp [erase]

theorem get?_putNew_self (a : α) : get? (putNew ms name a) name = (get? ms name).or (some a) := by
  by_cases h : name ∈ names ms
  · rw [putNew_of_mem a h]
    obtain ⟨b, hb⟩ := Option.isSome_iff_exists.mp ((has_iff ms name).mpr h)
    simp [hb]
  · have hnone := (get?_eq_none_iff ms name).mpr h
    rw [putNew, if_neg (by rwa [has_iff]), get?_put_self, hnone, Option.none_or]

theorem map_put (f : String → α → β) (a : α) :
    (put ms name a).map (fun m => (m.1, f m.1 m.2)) =
      put (ms.map (fun m => (m.1, f m.1 m.2))) name (f name a) := by
  induction ms with
  | nil => rfl
  | cons m rest ih =>
    obtain ⟨n, b⟩ := m
    by_cases h : n = name
    · subst h
      simp [put]
    · simp [put, h, ih]

end Members

namespace Json

/-! ## Without descriptions -/

/-- An object with its values changed, each as its name says. -/
def mapMembers (f : String → Json → Json) : Json → Json
  | .object ms => .object (ms.map (fun m => (m.1, f m.1 m.2)))
  | j => j

/-- An object with the value of one name changed. -/
def mapMember (name : String) (f : Json → Json) : Json → Json :=
  mapMembers (fun n x => if n = name then f x else x)

def withoutDescription : Json → Json
  | .object ms => .object (Members.erase ms "description")
  | j => j

/-- A shape without its description and those of its properties. -/
def bareShape (j : Json) : Json :=
  j.withoutDescription.mapMember "properties" (mapMembers (fun _ => withoutDescription))

/-- A document without the descriptions of its shapes and their properties. -/
def bareDocument (j : Json) : Json :=
  j.bareShape.mapMember definitionsKey (mapMembers (fun _ => bareShape))

theorem withoutDescription_object (ms : Members Json) :
    (object ms).withoutDescription = .object (Members.erase ms "description") := rfl

theorem mapMembers_put (ms : Members Json) (name : String) (f : String → Json → Json) (x : Json) :
    (object (Members.put ms name x)).mapMembers f =
      .object (Members.put (ms.map (fun m => (m.1, f m.1 m.2))) name (f name x)) :=
  congrArg object (Members.map_put ms name f x)

theorem bareShape_put (ms : Members Json) (name : String) (x : Json)
    (hdescription : name ≠ "description") (hproperties : name ≠ "properties") :
    ∃ bare : Members Json, (object ms).bareShape = .object bare ∧
      (object (Members.put ms name x)).bareShape = .object (Members.put bare name x) := by
  refine ⟨_, rfl, ?_⟩
  unfold bareShape mapMember
  rw [withoutDescription_object, Members.erase_put_of_ne _ _ _ hdescription, mapMembers_put,
    if_neg hproperties]

theorem bareDocument_put {ms₁ ms₂ : Members Json} {x₁ x₂ : Json}
    (hms : (object ms₁).bareShape = (object ms₂).bareShape)
    (hx : x₁.mapMembers (fun _ => bareShape) = x₂.mapMembers (fun _ => bareShape)) :
    (object (Members.put ms₁ definitionsKey x₁)).bareDocument =
      (object (Members.put ms₂ definitionsKey x₂)).bareDocument := by
  obtain ⟨bare₁, hbare₁, hput₁⟩ := bareShape_put ms₁ definitionsKey x₁ (by decide) (by decide)
  obtain ⟨bare₂, hbare₂, hput₂⟩ := bareShape_put ms₂ definitionsKey x₂ (by decide) (by decide)
  have hbare : bare₁ = bare₂ := Json.object.inj (hbare₁.symm.trans (hms.trans hbare₂))
  unfold bareDocument mapMember
  rw [hput₁, hput₂, mapMembers_put, mapMembers_put, if_pos rfl, if_pos rfl, hbare, hx]

end Json

namespace Schema

theorem object_members_congr {F : Json → Json} (hbool : ∀ b, F (.bool b) = .bool b)
    (hobject : ∀ ms, ∃ ms', F (.object ms) = .object ms') {s₁ s₂ : Schema}
    (h : F s₁.toJson = F s₂.toJson) : F (.object s₁.members) = F (.object s₂.members) := by
  cases s₁ with
  | always b₁ =>
    cases s₂ with
    | always b₂ =>
      simp only [toJson, hbool, Json.bool.injEq] at h
      rw [h]
    | keywords ms =>
      obtain ⟨ms', hms'⟩ := hobject ms
      simp [toJson, hbool, hms'] at h
  | keywords ms =>
    obtain ⟨ms', hms'⟩ := hobject ms
    cases s₂ with
    | always b => simp [toJson, hbool, hms'] at h
    | keywords ms₂ => exact h

end Schema

namespace Converter

/-- The same converter with or without the wish for descriptions. -/
def describing (c : Converter) (wish : Bool) : Converter := { c with descriptions := wish }

/-- What a description adds under the wish for descriptions. -/
def wanted (c : Converter) (description : Option String) : Option Json :=
  if c.descriptions then description.map Json.string else none

variable {c : Converter} {depth : Nat}

/-! ## Two conversions -/

theorem erase_members_describe (c : Converter) (description : Option String) (s : Schema) :
    Members.erase (c.describe description s).members "description" =
      Members.erase s.members "description" := by
  unfold describe
  split
  · rw [Schema.members_putNew, Members.erase_putNew_self]
  · rfl

theorem withoutDescription_describe (c : Converter) (description : Option String) {s : Schema}
    (h : s.toJson = .object s.members) :
    (c.describe description s).toJson.withoutDescription = s.toJson.withoutDescription := by
  rw [describe_toJson c description s h, h, Json.withoutDescription_object, erase_members_describe]
  rfl

theorem withoutDescription_propertyOf {c₁ c₂ : Converter} (f : Field) {s₁ s₂ : Schema}
    (h : s₁.toJson.withoutDescription = s₂.toJson.withoutDescription) :
    (c₁.propertyOf f s₁).toJson.withoutDescription =
      (c₂.propertyOf f s₂).toJson.withoutDescription := by
  have hmembers := Schema.object_members_congr (fun _ => rfl) (fun _ => ⟨_, rfl⟩) h
  simp only [Json.withoutDescription_object, Json.object.injEq] at hmembers
  have hput : ∀ s : Schema, (s.put "title" (.string f.name)).toJson.withoutDescription =
      .object (Members.put (Members.erase s.members "description") "title" (.string f.name)) :=
    fun s => congrArg Json.object (Members.erase_put_of_ne _ _ _ (by decide))
  unfold propertyOf
  rw [withoutDescription_describe c₁ _ rfl, withoutDescription_describe c₂ _ rfl, hput, hput,
    hmembers]

theorem bareShape_describe (c : Converter) (description : Option String) (properties : Members Json)
    (required : List String) :
    (c.describe description (Schema.shape properties required)).toJson.bareShape =
      (Schema.shape (properties.map (fun m => (m.1, m.2.withoutDescription))) required).toJson := by
  unfold Json.bareShape
  rw [withoutDescription_describe c description rfl]
  rfl

theorem fragment_describing (c : Converter) (wish : Bool) (depth : Nat) (t : TypeRef) :
    (c.describing wish).fragment depth t = c.fragment depth t := by
  induction depth generalizing t with
  | zero => rfl
  | succ depth ih =>
    cases t with
    | list item b => rw [fragment_list, fragment_list, ih]
    | named n b =>
      simp only [fragment, ih]
      rfl

theorem shape_sameBare (c : Converter) (wish₁ wish₂ : Bool) (depth : Nat) (o : ObjectType) :
    Walk.InStep some (fun s₁ s₂ : Schema => s₁.toJson.bareShape = s₂.toJson.bareShape)
      ((c.describing wish₁).shape depth o) ((c.describing wish₂).shape depth o) := by
  apply shape_inStep
    (R := fun s₁ s₂ => s₁.toJson.withoutDescription = s₂.toJson.withoutDescription)
  · intro f _
    rw [fragment_describing, fragment_describing]
    exact ⟨rfl, rfl, .refl (fun s => Eq.refl s.toJson.withoutDescription)⟩
  · exact fun f _ _ hs => withoutDescription_propertyOf f hs
  · intro ps₁ ps₂ hps
    have halike := properties_alike (S := fun x y => x.withoutDescription = y.withoutDescription)
      (fun _ => rfl) o hps
    have hbare := (halike.mapValues (S := Eq) (fun _ _ hxy => hxy)).eq
    rw [bareShape_describe, bareShape_describe, hbare]

theorem definitionsJson_sameBare {ds₁ ds₂ : Members Schema}
    (h : Members.Alike (fun s₁ s₂ : Schema => s₁.toJson.bareShape = s₂.toJson.bareShape) ds₁ ds₂) :
    (definitionsJson ds₁).mapMembers (fun _ => Json.bareShape) =
      (definitionsJson ds₂).mapMembers (fun _ => Json.bareShape) := by
  have hjson := h.mapValues (S := fun x y : Json => x.bareShape = y.bareShape) (f := Schema.toJson)
    (g := Schema.toJson) (fun _ _ hs => hs)
  exact congrArg Json.object (hjson.mapValues (S := Eq) (fun _ _ hxy => hxy)).eq

theorem assemble_sameBare {ds₁ ds₂ : Members Schema}
    (h : Members.Alike (fun s₁ s₂ : Schema => s₁.toJson.bareShape = s₂.toJson.bareShape) ds₁ ds₂) :
    (assemble ds₁).toJson.bareDocument = (assemble ds₂).toJson.bareDocument := by
  cases h with
  | nil => rfl
  | @cons d₁ d₂ rest₁ rest₂ hd hrest =>
    have hms := Schema.object_members_congr (fun _ => rfl) (fun _ => ⟨_, rfl⟩) hd.2
    exact Json.bareDocument_put hms (definitionsJson_sameBare hrest)

theorem convert_sameBare (c : Converter) (wish₁ wish₂ : Bool) (root : ObjectType) :
    Traced.InStep some (fun d₁ d₂ : Schema => d₁.toJson.bareDocument = d₂.toJson.bareDocument)
      ((c.describing wish₁).convert root) ((c.describing wish₂).convert root) := by
  have hrun : Traced.InStep some
      (SameProgress (fun s₁ s₂ => s₁.toJson.bareShape = s₂.toJson.bareShape))
      ((c.describing wish₁).discover (c.depth (some root)) (c.types.objects.length + 2)
        ⟨References.seeded root, []⟩)
      ((c.describing wish₂).discover (c.depth (some root)) (c.types.objects.length + 2)
        ⟨References.seeded root, []⟩) := by
    apply discover_inStep (P := fun _ => True)
    · exact fun o _ => shape_sameBare c wish₁ wish₂ _ o
    · exact fun _ _ _ _ _ _ => trivial
    · exact ⟨rfl, List.Forall₂.nil⟩
    · exact fun _ _ => trivial
  exact ⟨hrun.events, hrun.fate.map (fun _ _ _ hp => assemble_sameBare hp.2)⟩

theorem definitions_sameBare (c : Converter) (wish₁ wish₂ : Bool) :
    Traced.InStep some (fun d₁ d₂ : Schema => d₁.toJson.bareDocument = d₂.toJson.bareDocument)
      (c.describing wish₁).definitions (c.describing wish₂).definitions := by
  have hrun := defineAll_inStep (fun o => shape_sameBare c wish₁ wish₂ (c.depth none) o) c.types
    List.Forall₂.nil
  refine ⟨hrun.events, hrun.fate.map ?_⟩
  intro ds₁ ds₂ _ hds
  have hnil : (Json.object []).bareShape = (Json.object []).bareShape := rfl
  exact Json.bareDocument_put hnil (definitionsJson_sameBare hds)

theorem convertNamed_sameBare (c : Converter) (wish₁ wish₂ : Bool) (n : String) :
    Traced.InStep some (fun d₁ d₂ : Schema => d₁.toJson.bareDocument = d₂.toJson.bareDocument)
      ((c.describing wish₁).convertNamed n) ((c.describing wish₂).convertNamed n) := by
  have htypes : ∀ wish, (c.describing wish).types = c.types := fun _ => rfl
  unfold convertNamed
  simp only [htypes]
  cases c.types.get? n with
  | none => exact ⟨rfl, .stopped _⟩
  | some d =>
    cases d with
    | object o => exact convert_sameBare c wish₁ wish₂ o
    | _ => exact ⟨rfl, .stopped _⟩

/-! ## One conversion -/

theorem get?_members_description (s : Schema) :
    Members.get? s.members "description" = s.get? "description" := by
  cases s with
  | always b => cases b <;> rfl
  | keywords ms => rfl

theorem get?_describe_self (c : Converter) (description : Option String) (s : Schema) :
    Members.get? (c.describe description s).members "description" =
      (Members.get? s.members "description").or (c.wanted description) := by
  unfold describe wanted
  cases c.descriptions with
  | false => simp
  | true =>
    cases description with
    | none => simp
    | some text => simp [Schema.members_putNew, Members.get?_putNew_self]

theorem propertyOf_description (f : Field) (s : Schema) :
    (c.propertyOf f s).toJson.get? "description" =
      (s.get? "description").or (c.wanted f.description) := by
  rw [propertyOf_toJson, Json.get?_object]
  unfold propertyOf
  rw [get?_describe_self, Schema.get?_members_put (by decide), get?_members_description]

theorem shapeOf_description (o : ObjectType) (fragments : List Schema) :
    (c.shapeOf o fragments).toJson.get? "description" = c.wanted o.description := by
  rw [shapeOf_toJson, Json.get?_object]
  unfold shapeOf
  rw [get?_describe_self]
  exact Option.none_or

theorem Generates.description_iff {t : TypeRef} {s : Schema} (h : c.Generates t s) (x : Json) :
    s.get? "description" = some x ↔ ∃ n b, t = .named n b ∧ c.IsCustom n ∧
      (c.customSchema n).get? "description" = some x := by
  constructor
  · intro hx
    rcases h.custom_or_built with ⟨n, b, rfl, hn⟩ | ⟨ms, rfl, hms⟩
    · exact ⟨n, b, rfl, hn, h.custom hn ▸ hx⟩
    · exact absurd (Members.mem_names_of_get? hx) hms
  · rintro ⟨n, b, rfl, hn, hx⟩
    rwa [h.custom hn]

/-- A value says of an object type and its fields what their descriptions say, unless a property
has a description of its own. -/
structure Describes (c : Converter) (o : ObjectType) (j : Json) : Prop where
  own : j.get? "description" = c.wanted o.description
  fields : ∀ f ∈ o.fields, f.name ≠ typenameProperty → ∃ s x, c.Generates f.type s ∧
    j.follow [.member "properties", .member f.name] = some x ∧
    x.get? "description" = (s.get? "description").or (c.wanted f.description)

theorem shape_describes {o : ObjectType} (ho : o.Lawful) {s : Schema}
    (h : (c.shape depth o).outcome = .ok s) : c.Describes o s.toJson := by
  obtain ⟨fragments, hfragments, rfl⟩ := shape_ok h
  refine ⟨shapeOf_description o fragments, ?_⟩
  intro f hf hname
  obtain ⟨s, hs, hok⟩ := exists_mem_zip hfragments hf
  exact ⟨s, _, ⟨depth, hok⟩, shapeOf_follow ho hs hname [], propertyOf_description f s⟩

theorem Describes.put {o : ObjectType} {s : Schema} (h : c.Describes o (.object s.members))
    (x : Json) : c.Describes o (s.put definitionsKey x).toJson := by
  refine ⟨(Members.get?_put_of_ne _ _ (by decide)).trans h.own, ?_⟩
  intro f hf hname
  obtain ⟨s', y, hs', hfollow, hy⟩ := h.fields f hf hname
  refine ⟨s', y, hs', ?_, hy⟩
  rw [put_toJson, Json.follow] at *
  simpa only [Json.part?, Members.get?_put_of_ne s.members x
    (show "properties" ≠ definitionsKey by decide)] using hfollow

/-- **Descriptions.** Documents with and without descriptions are equal without them. -/
theorem descriptions_only_describe (c : Converter) :
    (∀ root, Traced.InStep some (fun d₁ d₂ : Schema => d₁.toJson.bareDocument = d₂.toJson.bareDocument)
      ((c.describing true).convert root) ((c.describing false).convert root)) ∧
    (∀ n, Traced.InStep some (fun d₁ d₂ : Schema => d₁.toJson.bareDocument = d₂.toJson.bareDocument)
      ((c.describing true).convertNamed n) ((c.describing false).convertNamed n)) ∧
    Traced.InStep some (fun d₁ d₂ : Schema => d₁.toJson.bareDocument = d₂.toJson.bareDocument)
      (c.describing true).definitions (c.describing false).definitions ∧
    (∀ t s x, c.Generates t s → (s.get? "description" = some x ↔ ∃ n b, t = .named n b ∧
      c.IsCustom n ∧ (c.customSchema n).get? "description" = some x)) ∧
    (c.types.Lawful → ∀ root doc, (∀ o, root = some o ∨ o ∈ c.types.objects → o.Lawful) →
      Converted c root doc →
      (∀ o, root = some o → c.Describes o doc.toJson) ∧
      ∀ n j, doc.definitions.get? n = some j →
        ∃ o, c.types.get? n = some (.object o) ∧ c.Describes o j) := by
  refine ⟨convert_sameBare c true false, convertNamed_sameBare c true false,
    definitions_sameBare c true false, fun t s x hs => hs.description_iff x, ?_⟩
  intro hl root doc hfields h
  constructor
  · rintro o rfl
    obtain ⟨s, x, hs, rfl⟩ := h.root_shape hl
    obtain ⟨fragments, -, hshape⟩ := shape_ok hs
    have hdescribes := shape_describes (hfields o (Or.inl rfl)) hs
    rw [hshape, shapeOf_toJson, ← hshape] at hdescribes
    exact hdescribes.put x
  · intro n j hj
    obtain ⟨o, s, ho, hs, rfl⟩ := h.definition_shape hl hj
    exact ⟨o, ho, shape_describes (hfields o (Or.inr (hl.mem_objects_of_get? ho))) hs⟩

/-- A field for each way in which a property comes by a description, or by none. -/
def letterType : ObjectType :=
  ⟨"Letter", some "What is sent", [⟨"sent", .named "Date" true, some "When it was sent"⟩,
    ⟨"read", .list (.named "Date" true) false, some "When it was read"⟩,
    ⟨"description", .named "String" false, none⟩]⟩

def letterConverter : Converter where
  types := TypeMap.ofDefs [.object letterType, .scalar "Date", .scalar "String"]
  policy := Policy.never
  scalars := some
    [("Date", .keywords [("type", .string "string"), ("description", .string "A day")])]
  descriptions := true

theorem descriptions_only_describe_letters : ∃ doc, letterConverter.types.Lawful ∧
    (letterConverter.convert letterType).outcome = .ok doc ∧
    doc.toJson.get? "description" = some (.string "What is sent") ∧
    (∃ x, doc.toJson.follow [.member "properties", .member "sent"] = some x ∧
      x.get? "description" = some (.string "A day")) ∧
    (∃ x, doc.toJson.follow [.member "properties", .member "read"] = some x ∧
      x.get? "description" = some (.string "When it was read")) ∧
    ∃ x, doc.toJson.follow [.member "properties", .member "description"] = some x ∧
      x.get? "description" = none := by
  have hl : letterConverter.types.Lawful := TypeMap.ofDefs_lawful _
  have hfields : ∀ o, some letterType = some o ∨ o ∈ letterConverter.types.objects → o.Lawful :=
    ObjectType.lawful_of_all (by decide) (by decide)
  obtain ⟨doc, hdoc⟩ :=
    exists_ok (by decide : (letterConverter.convert letterType).outcome.isOk = true)
  obtain ⟨-, -, -, -, hdescribes⟩ := descriptions_only_describe letterConverter
  obtain ⟨hown, hproperties⟩ := (hdescribes hl _ doc hfields (.rooted hdoc)).1 _ rfl
  have hproperty : ∀ f ∈ letterType.fields, f.name ≠ typenameProperty →
      ∀ s, letterConverter.Generates f.type s →
      ∃ x, doc.toJson.follow [.member "properties", .member f.name] = some x ∧
        x.get? "description" = (s.get? "description").or (letterConverter.wanted f.description) := by
    intro f hf hname s hs
    obtain ⟨s', x, hs', hfollow, hx⟩ := hproperties f hf hname
    exact ⟨x, hfollow, hs'.unique hs ▸ hx⟩
  refine ⟨doc, hl, hdoc, hown, ?_, ?_, ?_⟩
  · exact hproperty _ (.head _) (by decide) _ ⟨1, rfl⟩
  · exact hproperty _ (.tail _ (.head _)) (by decide) _ ⟨2, rfl⟩
  · exact hproperty _ (.tail _ (.tail _ (.head _))) (by decide) _ ⟨1, rfl⟩

end Converter

end GraphShape
