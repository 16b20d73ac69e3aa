import GraphShape.CommandLine.Run
import GraphShape.Proofs.Pointers
import GraphShape.Proofs.Rendering
import GraphShape.Proofs.SpelledSettings
import GraphShape.Proofs.Validity

/-!
# The published schema and the reader

The schema of configurations is written from the list of settings, and so is the reader, but not
from each other. The key fact is that the schema of each kind of setting lets through just the
values that stand for one of the kind, and its reader takes each of them for what it stands for. So
every value that is valid against the printed schema is read, and its settings are what it says.
-/

namespace GraphShape

namespace Json

/-! ## Validity -/

mutual

/-- No object has a key twice. -/
def KeysOnce : Json → Prop
  | .array xs => KeysOnceItems xs
  | .object ms => (Members.names ms).Nodup ∧ KeysOnceMembers ms
  | _ => True

def KeysOnceItems : List Json → Prop
  | [] => True
  | x :: xs => KeysOnce x ∧ KeysOnceItems xs

def KeysOnceMembers : List (String × Json) → Prop
  | [] => True
  | (_, x) :: ms => KeysOnce x ∧ KeysOnceMembers ms

end

theorem KeysOnceMembers.of_mem {ms : List (String × Json)} {m : String × Json}
    (h : KeysOnceMembers ms) (hm : m ∈ ms) : m.2.KeysOnce := by
  induction ms with
  | nil => cases hm
  | cons first ms ih =>
    obtain ⟨hfirst, hmore⟩ := h
    rcases List.mem_cons.mp hm with rfl | hm
    · exact hfirst
    · exact ih hmore hm

/-- A value is valid against a schema in a document: it has the type or one of the types, it is one
of those that are listed, its members are valid against the schemas for their names, and it is valid
against the schema that a reference leads to. Other keywords assert nothing. -/
inductive Valid (document : Json) : Json → Json → Prop
  | keywords {s v : Json}
      (type : ∀ t, s.get? "type" = some (.string t) → v.typeName = t)
      (types : ∀ ts, s.get? "type" = some (.array ts) → .string v.typeName ∈ ts)
      (enum : ∀ xs, s.get? "enum" = some (.array xs) → v ∈ xs)
      (properties : ∀ ps, s.get? "properties" = some (.object ps) → ∀ p ∈ ps, ∀ x,
        v.get? p.1 = some x → Valid document p.2 x)
      (reference : ∀ r t, s.get? "$ref" = some (.string r) → document.at? r = some t →
        Valid document t v) : Valid document s v

/-! ### Schemas by their keywords -/

section Keywords

variable {document s v : Json}

theorem valid_iff : Valid document s v ↔
    (∀ t, s.get? "type" = some (.string t) → v.typeName = t) ∧
    (∀ ts, s.get? "type" = some (.array ts) → .string v.typeName ∈ ts) ∧
    (∀ xs, s.get? "enum" = some (.array xs) → v ∈ xs) ∧
    (∀ ps, s.get? "properties" = some (.object ps) → ∀ p ∈ ps, ∀ x, v.get? p.1 = some x →
      Valid document p.2 x) ∧
    ∀ r t, s.get? "$ref" = some (.string r) → document.at? r = some t → Valid document t v := by
  constructor
  · rintro ⟨htype, htypes, henum, hproperties, href⟩
    exact ⟨htype, htypes, henum, hproperties, href⟩
  · rintro ⟨htype, htypes, henum, hproperties, href⟩
    exact .keywords htype htypes henum hproperties href

theorem valid_type_iff {t : String} (htype : s.get? "type" = some (.string t))
    (henum : s.get? "enum" = none) (hproperties : s.get? "properties" = none)
    (href : s.get? "$ref" = none) : Valid document s v ↔ v.typeName = t := by
  rw [valid_iff]
  simp [htype, henum, hproperties, href]

theorem valid_types_iff {ts : List Json} (htypes : s.get? "type" = some (.array ts))
    (henum : s.get? "enum" = none) (hproperties : s.get? "properties" = none)
    (href : s.get? "$ref" = none) : Valid document s v ↔ .string v.typeName ∈ ts := by
  rw [valid_iff]
  simp [htypes, henum, hproperties, href]

theorem valid_enum_iff {t : String} {xs : List Json} (htype : s.get? "type" = some (.string t))
    (henum : s.get? "enum" = some (.array xs)) (hproperties : s.get? "properties" = none)
    (href : s.get? "$ref" = none) : Valid document s v ↔ v.typeName = t ∧ v ∈ xs := by
  rw [valid_iff]
  simp [htype, henum, hproperties, href]

theorem valid_object_iff {ps : Members Json} (htype : s.get? "type" = some (.string "object"))
    (henum : s.get? "enum" = none) (hproperties : s.get? "properties" = some (.object ps))
    (href : s.get? "$ref" = none) : Valid document s v ↔ ∃ ms, v = .object ms ∧ ∀ p ∈ ps, ∀ x,
      Members.get? ms p.1 = some x → Valid document p.2 x := by
  have hobject : v.typeName = "object" ↔ ∃ ms, v = .object ms := by
    cases v <;> simp [typeName]
  have hvalid : Valid document s v ↔ v.typeName = "object" ∧
      ∀ p ∈ ps, ∀ x, v.get? p.1 = some x → Valid document p.2 x := by
    rw [valid_iff]
    simp only [htype, henum, hproperties, href]
    simp
  rw [hvalid, hobject]
  constructor
  · rintro ⟨⟨ms, rfl⟩, h⟩
    exact ⟨ms, rfl, h⟩
  · rintro ⟨ms, rfl, h⟩
    exact ⟨⟨ms, rfl⟩, h⟩

theorem valid_reference_iff {r : String} {t : Json} (htype : s.get? "type" = none)
    (henum : s.get? "enum" = none) (hproperties : s.get? "properties" = none)
    (href : s.get? "$ref" = some (.string r)) (hr : document.at? r = some t) :
    Valid document s v ↔ Valid document t v := by
  rw [valid_iff]
  simp only [htype, henum, hproperties, href, reduceCtorEq, false_implies, implies_true, true_and]
  constructor
  · intro h
    exact h r t rfl hr
  · rintro h _ t' ⟨⟩ ht
    cases hr.symm.trans ht
    exact h

end Keywords

theorem parse_line (style : Style) {j : Json} (hj : j.Exact) (hdepth : j.nesting < nestingLimit) :
    parse (j.text style ++ "\n") = .ok j := by
  have htext : (j.text style ++ "\n").toList = j.write style 0 ++ ['\n'] := by
    rw [String.toList_append, text, String.toList_ofList]
    rfl
  have hend : EndsNumber ['\n'] := endsNumber_cons [] (by decide)
  have hread : Reads (do let j ← readValue (steps (j.text style ++ "\n").toList.length) nestingLimit
                         Json.readEnd
                         pure j) (j.write style 0 ++ ['\n']) j [] := by
    have hvalue : Reads (readValue (steps (j.text style ++ "\n").toList.length) nestingLimit)
        ([] ++ (j.write style 0 ++ ['\n'])) j ['\n'] := by
      refine Reads.value style j hj hdepth ?_ .nil hend
      rw [htext, List.length_append]
      unfold steps
      omega
    have hblank : Blanks ['\n'] := by simp [Blanks, isBlank]
    exact hvalue.bind ((Reads.blankEnding hblank).bind (Reads.pure j []))
  obtain ⟨c, hc, -⟩ := hread (Cursor.start (j.text style ++ "\n").toList) htext
  exact congrArg (Except.map Prod.fst) hc

end Json

open Json

/-! ## The printed document -/

theorem Members.get?_mapValues {α β : Type} (ms : Members α) (f : String → α → β) (name : String) :
    Members.get? (ms.map fun m => (m.1, f m.1 m.2)) name = (Members.get? ms name).map (f name) := by
  induction ms with
  | nil => rfl
  | cons m ms ih =>
    obtain ⟨n, x⟩ := m
    rw [List.map_cons, Members.get?, Members.get?]
    split
    · rename_i hn
      rw [hn]
      rfl
    · exact ih

namespace Schema

theorem get?_arrange {ms : Members Json} (h : (Members.names ms).Nodup) (k : String) :
    (arrange (.object ms)).get? k = (Members.get? ms k).map (arrangeUnder k) := by
  have hmap : Members.get? (arrangeMembers ms) k = (Members.get? ms k).map (arrangeUnder k) := by
    rw [arrangeMembers_eq_map, Members.get?_mapValues]
  have hnames : (Members.names (arrangeMembers ms)).Nodup := by
    rwa [arrangeMembers_eq_map, Members.names, List.map_map]
  have hperm := sortMembers_perm (arrangeMembers ms)
  have hsorted : (Members.names (sortMembers (arrangeMembers ms))).Nodup :=
    (hperm.map Prod.fst).nodup_iff.mpr hnames
  rw [← hmap, arrange]
  change Members.get? (sortMembers (arrangeMembers ms)) k = _
  ext x
  rw [Members.get?_eq_some_iff hsorted, Members.get?_eq_some_iff hnames]
  exact hperm.mem_iff

theorem arrangeValues_eq_map (ms : Members Json) :
    arrangeValues ms = ms.map fun m => (m.1, arrange m.2) := by
  induction ms with
  | nil => rfl
  | cons m ms ih =>
    obtain ⟨k, v⟩ := m
    rw [arrangeValues, ih, List.map_cons]

theorem arrangeUnder_named {k : String} (hk : k = "properties" ∨ k = "$defs") (ms : Members Json) :
    arrangeUnder k (.object ms) = .object (ms.map fun m => (m.1, arrange m.2)) := by
  have hverbatim : isVerbatim k = false := by
    rcases hk with rfl | rfl <;> decide +kernel
  have hnames : namesSchemas k = true := by
    rcases hk with rfl | rfl <;> decide
  rw [arrangeUnder, hverbatim, hnames, arrangeValues_eq_map]
  rfl

end Schema

open Schema

namespace Config

/-- The document as it is printed. -/
def published : Json := arrange Config.publishedSchema.toJson

theorem exact_keywords (k : Kind) (default : k.Value) : ExactMembers (k.keywords default) := by
  have hoptional : ∀ s : Option String, (Kind.keywords.optionalJson s).Exact := by
    intro s
    cases s <;> exact trivial
  cases k with
  | flag | text => exact ⟨trivial, trivial, trivial⟩
  | optionalText | optionalPath =>
    exact ⟨⟨trivial, trivial, trivial⟩, hoptional default, trivial⟩
  | level | rotation => exact ⟨trivial, trivial⟩

theorem nodup_keywords (k : Kind) (default : k.Value) (description : Json) :
    (Members.names (("description", description) :: k.keywords default)).Nodup := by
  cases k <;> simp [Kind.keywords]

theorem exact_setting (s : Setting) : s.schema.Exact :=
  ⟨nodup_keywords _ _ _, trivial, exact_keywords _ _⟩

theorem exact_definitions (k : Kind) : ExactMembers k.definitions := by
  have hstrings : ∀ texts : List String, (Json.strings texts).Exact := by
    intro texts
    induction texts with
    | nil => exact trivial
    | cons text texts ih => exact ⟨trivial, ih⟩
  cases k with
  | level | rotation => exact ⟨⟨by decide, trivial, trivial, hstrings _, trivial⟩, trivial⟩
  | _ => exact trivial

theorem exact_group {name description : String} {g : SettingGroup}
    (h : Entry.group name description g ∈ Config.entries) : g.schema.Exact := by
  refine ⟨?_, trivial, trivial, ⟨?_, ?_⟩, trivial⟩
  · simp
  · rw [Members.names, List.map_map]
    exact (ordered_of_mem h).1
  · rw [exactMembers_iff]
    intro m hm
    obtain ⟨s, -, rfl⟩ := List.mem_map.mp hm
    exact exact_setting s

theorem exact_publishedSchema : Config.publishedSchema.toJson.Exact := by
  refine ⟨by decide, trivial, trivial, trivial, trivial, ⟨by decide, ?_⟩, ⟨by decide, ?_⟩, trivial⟩
  · rw [exactMembers_iff]
    intro m hm
    obtain ⟨e, -, rfl⟩ := List.mem_map.mp hm
    cases e with
    | setting s => exact exact_setting s
    | group name description g =>
      refine ⟨?_, trivial, trivial, trivial⟩
      simp
  · rw [exactMembers_iff]
    intro m hm
    obtain ⟨e, he, hm⟩ := List.mem_flatMap.mp hm
    cases e with
    | setting s => exact (exactMembers_iff _).mp (exact_definitions s.kind) m hm
    | group name description g =>
      rcases List.mem_cons.mp hm with rfl | hm
      · exact exact_group he
      · obtain ⟨s, -, hm⟩ := List.mem_flatMap.mp hm
        exact (exactMembers_iff _).mp (exact_definitions s.kind) m hm

theorem nesting_publishedSchema : Config.publishedSchema.toJson.nesting < nestingLimit := by
  decide

/-- What is printed is read back. -/
theorem parse_publishedText : Json.parse CommandLine.publishedText = .ok published := by
  have harranged := arrange_reordered Config.publishedSchema.toJson
  have hexact : published.Exact := harranged.exact exact_publishedSchema
  have hnesting : published.nesting < nestingLimit :=
    Nat.lt_of_le_of_lt harranged.nesting_le nesting_publishedSchema
  exact parse_line .pretty hexact hnesting

-- No schema in the document has other keywords, so validity is all that the document asserts.
example : (publishedSchema.toJson :: entries.map Entry.schema ++
    (entries.flatMap Entry.definitions).map Prod.snd ++ slots.map fun x => x.setting.schema).all
      (fun s => (Members.names (s.members?.getD [])).all ["type", "enum", "properties", "$ref",
        "$schema", "title", "description", "default", "$defs"].contains) = true := by
  decide +kernel

theorem published_properties : published.get? "properties" =
    some (.object (Config.entries.map fun e => (e.name, arrange e.schema))) := by
  rw [published, publishedSchema, Schema.toJson, get?_arrange (by decide)]
  have hnamed := arrangeUnder_named (.inl rfl) (Config.entries.map fun e => (e.name, e.schema))
  rw [List.map_map] at hnamed
  exact congrArg some hnamed

theorem published_definition (name : String) : published.resolve ["$defs", name] =
    (Members.get? (Config.entries.flatMap Entry.definitions) name).map arrange := by
  have hdefs : published.get? "$defs" = some (.object
      ((Config.entries.flatMap Entry.definitions).map fun m => (m.1, arrange m.2))) := by
    rw [published, publishedSchema, Schema.toJson, get?_arrange (by decide)]
    exact congrArg some (arrangeUnder_named (.inr rfl) _)
  obtain ⟨ms, hms⟩ : ∃ ms, published = .object ms := ⟨_, rfl⟩
  rw [hms] at hdefs ⊢
  change (Members.get? ms "$defs").bind _ = _
  change Members.get? ms "$defs" = _ at hdefs
  rw [hdefs, Option.bind_some, resolve_single]
  exact Members.get?_mapValues _ (fun _ => arrange) name

end Config

/-! ## Valid values -/

/-- The JSON value that stands for the value of a setting. A level and a rotation stand under their
names, and a null for what is not set. -/
def Kind.toJson : (k : Kind) → k.Value → Json
  | .flag, b => .bool b
  | .text, s => .string s
  | .optionalText, s => (s.map Json.string).getD .null
  | .optionalPath, s => (s.map Json.string).getD .null
  | .level, l => .string l.name
  | .rotation, r => .string r.name

/-- A JSON value is read as a value of the kind, and stands for that. -/
def Kind.Means (k : Kind) (j : Json) : Prop := ∃ v, k.ofJson? j = some v ∧ k.toJson v = j

section Valid

variable {j : Json}

theorem arrangeUnder_strings (k : String) (texts : List String) :
    arrangeUnder k (Json.strings texts) = Json.strings texts := by
  have hitems : arrangeItems (texts.map Json.string) = texts.map Json.string := by
    induction texts with
    | nil => rfl
    | cons text texts ih =>
      rw [List.map_cons, arrangeItems, ih]
      rfl
  rw [Json.strings, arrangeUnder, hitems, ite_self]

theorem valid_names_iff {description : String} {names : List String} :
    Valid Config.published (arrange (namesSchema description names)) j ↔
      ∃ name ∈ names, j = .string name := by
  have hget (k : String) : (arrange (namesSchema description names)).get? k = _ :=
    get?_arrange (by simp) k
  have henum := (hget "enum").trans (congrArg some (arrangeUnder_strings "enum" names))
  rw [valid_enum_iff (hget "type") henum (hget "properties") (hget "$ref"), List.mem_map]
  constructor
  · rintro ⟨-, name, hname, rfl⟩
    exact ⟨name, hname, rfl⟩
  · rintro ⟨name, hname, rfl⟩
    exact ⟨rfl, name, hname, rfl⟩

theorem Config.published_reference {name : String} {definition : Json}
    (hname : isGraphQLName name = true)
    (h : Members.get? (Config.entries.flatMap Entry.definitions) name = some definition) :
    published.at? (definitionPointer name) = some (arrange definition) := by
  rw [at?_definitionPointer published hname]
  change published.resolve ["$defs", name] = _
  rw [published_definition, h]
  rfl

theorem means_flag_iff : Kind.flag.Means j ↔ j.typeName = "boolean" := by
  cases j <;> simp [Kind.Means, Kind.ofJson?, Kind.toJson, typeName]

theorem means_text_iff : Kind.text.Means j ↔ j.typeName = "string" := by
  cases j <;> simp [Kind.Means, Kind.ofJson?, Kind.toJson, typeName]

theorem means_optional_iff {k : Kind} (hk : k = .optionalText ∨ k = .optionalPath) :
    k.Means j ↔ j.typeName = "string" ∨ j.typeName = "null" := by
  rcases hk with rfl | rfl
  all_goals cases j <;> simp [Kind.Means, Kind.ofJson?, Kind.toJson, typeName]

theorem means_level_iff :
    Kind.level.Means j ↔ ∃ name ∈ Log.Level.all.reverse.map Log.Level.name, j = .string name := by
  constructor
  · rintro ⟨l, -, rfl⟩
    exact ⟨l.name, List.mem_map_of_mem (by cases l <;> decide), rfl⟩
  · rintro ⟨_, hname, rfl⟩
    obtain ⟨l, -, rfl⟩ := List.mem_map.mp hname
    refine ⟨l, ?_, rfl⟩
    cases l <;> decide +kernel

theorem means_rotation_iff :
    Kind.rotation.Means j ↔ ∃ name ∈ Rotation.all.map Rotation.name, j = .string name := by
  constructor
  · rintro ⟨r, -, rfl⟩
    exact ⟨r.name, List.mem_map_of_mem (by cases r <;> decide), rfl⟩
  · rintro ⟨_, hname, rfl⟩
    obtain ⟨r, -, rfl⟩ := List.mem_map.mp hname
    refine ⟨r, ?_, rfl⟩
    cases r <;> decide +kernel

/-- The schema of a kind lets through what is read as what it says. -/
theorem valid_kind_iff (k : Kind) (default : k.Value) (description : Json) :
    Valid Config.published
      (arrange (.object (("description", description) :: k.keywords default))) j ↔ k.Means j := by
  have hget := get?_arrange (Config.nodup_keywords k default description)
  cases k with
  | flag =>
    rw [means_flag_iff]
    exact valid_type_iff (hget "type") (hget "enum") (hget "properties") (hget "$ref")
  | text =>
    rw [means_text_iff]
    exact valid_type_iff (hget "type") (hget "enum") (hget "properties") (hget "$ref")
  | optionalText =>
    have htypes := (hget "type").trans (congrArg some (arrangeUnder_strings "type" _))
    rw [means_optional_iff (.inl rfl),
      valid_types_iff htypes (hget "enum") (hget "properties") (hget "$ref")]
    simp
  | optionalPath =>
    have htypes := (hget "type").trans (congrArg some (arrangeUnder_strings "type" _))
    rw [means_optional_iff (.inr rfl),
      valid_types_iff htypes (hget "enum") (hget "properties") (hget "$ref")]
    simp
  | level =>
    rw [means_level_iff, ← valid_names_iff]
    exact valid_reference_iff (hget "type") (hget "enum") (hget "properties") (hget "$ref")
      (Config.published_reference (by decide) rfl)
  | rotation =>
    rw [means_rotation_iff, ← valid_names_iff]
    exact valid_reference_iff (hget "type") (hget "enum") (hget "properties") (hget "$ref")
      (Config.published_reference (by decide) rfl)

theorem group_definition {name description : String} {g : SettingGroup}
    (hg : Entry.group name description g ∈ Config.entries) : isGraphQLName g.title = true ∧
      Members.get? (Config.entries.flatMap Entry.definitions) g.title = some g.schema := by
  simp only [Config.entries, List.mem_cons, Entry.group.injEq, reduceCtorEq, false_or, or_false,
    List.not_mem_nil] at hg
  rcases hg with ⟨-, -, rfl⟩ | ⟨-, -, rfl⟩ | ⟨-, -, rfl⟩ <;> exact ⟨by decide, rfl⟩

theorem valid_group_iff {name description : String} {g : SettingGroup}
    (hg : Entry.group name description g ∈ Config.entries) :
    Valid Config.published (arrange (Entry.group name description g).schema) j ↔
      ∃ ms, j = .object ms ∧ ∀ s ∈ g.settings, ∀ x, Members.get? ms s.name = some x →
        Valid Config.published (arrange s.schema) x := by
  obtain ⟨htitle, hdefinition⟩ := group_definition hg
  have hentry (k : String) : (arrange (Entry.group name description g).schema).get? k = _ :=
    get?_arrange (by simp) k
  have hget (k : String) : (arrange g.schema).get? k = _ := get?_arrange (by simp) k
  have hproperties := (hget "properties").trans (congrArg some (arrangeUnder_named (.inl rfl) _))
  rw [valid_reference_iff (hentry "type") (hentry "enum") (hentry "properties") (hentry "$ref")
    (Config.published_reference htitle hdefinition),
    valid_object_iff (hget "type") (hget "enum") hproperties (hget "$ref")]
  simp only [List.forall_mem_map]

theorem valid_whole_iff : Valid Config.published Config.published j ↔
    ∃ ms, j = .object ms ∧ ∀ e ∈ Config.entries, ∀ x, Members.get? ms e.name = some x →
      Valid Config.published (arrange e.schema) x := by
  have hget (k : String) : Config.published.get? k = _ := get?_arrange (by decide) k
  rw [valid_object_iff (hget "type") (hget "enum") Config.published_properties (hget "$ref")]
  simp only [List.forall_mem_map]

theorem fits_of_valid (h : Valid Config.published Config.published j) (hkeys : j.KeysOnce) :
    Config.Fits j := by
  have hsetting (s : Setting) {x : Json} (hx : Valid Config.published (arrange s.schema) x) :
      s.Fits x := by
    obtain ⟨v, hv, -⟩ := (valid_kind_iff s.kind _ _).mp hx
    exact ⟨v, hv⟩
  obtain ⟨ms, rfl, hms⟩ := valid_whole_iff.mp h
  obtain ⟨hnodup, hkeys⟩ := hkeys
  refine ⟨ms, rfl, hnodup, ?_⟩
  rintro m hm e he hname
  have hvalid := hms e he m.2 (hname ▸ Members.get?_of_mem hnodup hm)
  cases e with
  | setting s => exact hsetting s hvalid
  | group name description g =>
    obtain ⟨parts, heq, hparts⟩ := (valid_group_iff he).mp hvalid
    have honce := hkeys.of_mem hm
    rw [heq] at honce
    refine ⟨parts, heq, honce.1, ?_⟩
    rintro p hp s hs hname
    exact hsetting s (hparts s hs p.2 (hname ▸ Members.get?_of_mem honce.1 hp))

theorem valid_at {x : Slot} (hx : x ∈ Config.slots) (h : Valid Config.published Config.published j)
    {k : Json} (hk : j.resolve x.path = some k) :
    Valid Config.published (arrange x.setting.schema) k := by
  obtain ⟨ms, rfl, hms⟩ := valid_whole_iff.mp h
  obtain ⟨e, he, hxe⟩ := List.mem_flatMap.mp hx
  cases e with
  | setting s =>
    obtain rfl := List.mem_singleton.mp hxe
    change (Json.object ms).resolve [s.name] = some k at hk
    rw [resolve_single] at hk
    exact hms _ he k hk
  | group name description g =>
    obtain ⟨m, hm, rfl⟩ := List.mem_map.mp hxe
    obtain ⟨part, hpart, hk⟩ := Option.bind_eq_some_iff.mp hk
    obtain ⟨parts, rfl, hparts⟩ := (valid_group_iff he).mp (hms _ he part hpart)
    rw [resolve_single] at hk
    exact hparts m.1 (List.fst_mem_of_mem_zipIdx hm) k hk

end Valid

theorem Config.eq_of_slots {c c' : Config}
    (h : ∀ x ∈ Config.slots, x.setting.value c = x.setting.value c') : c = c' := by
  obtain ⟨⟨_, _⟩, _, _, ⟨_, _, _⟩, ⟨_, _⟩, _, _⟩ := c
  obtain ⟨⟨_, _⟩, _, _, ⟨_, _, _⟩, ⟨_, _⟩, _, _⟩ := c'
  simpa [Config.slots, Config.entries, Entry.slots, Config.collectionModelsGroup,
    Config.loggingGroup, Config.outputGroup, and_assoc] using h

/-- A text that spells a value without repeated keys that is valid against a document. -/
structure Accepted (document : Json) (text : String) (v : Json) : Prop where
  spelled : SpellsWhole text.toList v
  keys : v.KeysOnce
  valid : Valid document document v

namespace Config

/-- The settings of a configuration are what a value says: each has the value that is in its place,
and its default when nothing is there. -/
structure Says (v : Json) (c : Config) : Prop where
  given : ∀ x ∈ slots, ∀ j, v.resolve x.path = some j →
    x.setting.kind.toJson (x.setting.value c) = j
  absent : ∀ x ∈ slots, v.resolve x.path = none → x.setting.value c = x.setting.value standard

theorem says_ofJson {v : Json} (hkeys : v.KeysOnce) (hv : Valid published published v) :
    Says v (ofJson v) where
  given := by
    intro x hx j hj
    obtain ⟨value, hvalue, hmeans⟩ := (valid_kind_iff _ _ _).mp (valid_at hx hv hj)
    have hread := (value_ofJson (fits_of_valid hv hkeys) hx).1 j hj
    cases hvalue.symm.trans hread
    exact hmeans
  absent := fun _ hx => (value_ofJson (fits_of_valid hv hkeys) hx).2

theorem ofJson_congr {v v' : Json} (hv : Config.Fits v) (hv' : Config.Fits v')
    (h : ∀ x ∈ slots, v'.resolve x.path = v.resolve x.path) : ofJson v' = ofJson v := by
  refine eq_of_slots fun x hx => ?_
  have hsame := h x hx
  have hvalue := value_ofJson hv hx
  have hvalue' := value_ofJson hv' hx
  cases hj : v.resolve x.path with
  | none => rw [hvalue.2 hj, hvalue'.2 (hsame.trans hj)]
  | some j =>
    exact Option.some.inj ((hvalue'.1 j (hsame.trans hj)).symm.trans (hvalue.1 j hj))

/-- **The published schema is sound.** What is valid against it is read as what it says. -/
theorem valid_values_are_read : ∃ document,
    (∀ environment words s, Json.parse
      (CommandLine.Program.configSchema.run CommandLine.Host.ofScene environment words s).1.output =
        .ok document) ∧
    ∀ text v, Accepted document text v → ∃ c, Config.parse text = .ok c ∧ Says v c ∧
      ∀ text' v', Accepted document text' v' →
        (∀ x ∈ slots, v'.resolve x.path = v.resolve x.path) → Config.parse text' = .ok c := by
  refine ⟨published, fun _ _ _ => parse_publishedText, ?_⟩
  rintro text v ⟨htext, hkeys, hv⟩
  have hfits := fits_of_valid hv hkeys
  refine ⟨ofJson v, parse_spelled htext hfits, says_ofJson hkeys hv, ?_⟩
  rintro text' v' ⟨htext', hkeys', hv'⟩ hsame
  have hfits' := fits_of_valid hv' hkeys'
  rw [parse_spelled htext' hfits', ofJson_congr hfits hfits' hsame]

/-- Some settings, with members beside them that are none. -/
def debugValue : Json := .object
  [("retries", .array [.number (.whole 3), .object [("level", .null)]]),
    ("logging", .object [("level", .string "debug"), ("color", .bool true)]),
    ("schema", .null), ("root_type", .string "Query")]

theorem valid_debugValue : Valid published published debugValue := by
  refine valid_whole_iff.mpr ⟨_, rfl, fun e he x hx => ?_⟩
  simp only [entries, List.mem_cons, List.not_mem_nil, or_false] at he
  rcases he with rfl | rfl | rfl | rfl | rfl | rfl | rfl
  · cases hx
  · cases hx
  · cases hx
  · cases hx
    refine (valid_group_iff (by simp [entries])).mpr ⟨_, rfl, fun s hs x hx => ?_⟩
    simp only [loggingGroup, List.mem_cons, List.not_mem_nil, or_false] at hs
    rcases hs with rfl | rfl | rfl
    · cases hx
      exact (valid_kind_iff .level _ _).mpr ⟨.debug, by decide +kernel, rfl⟩
    · cases hx
    · cases hx
  · cases hx
  · cases hx
    exact (valid_kind_iff .optionalText _ _).mpr ⟨some "Query", rfl, rfl⟩
  · cases hx
    exact (valid_kind_iff .optionalPath _ _).mpr ⟨none, rfl, rfl⟩

theorem accepted_debugValue : Accepted published (debugValue.text .pretty) debugValue where
  spelled := by
    refine ⟨[], debugValue.write .pretty 0, [], ?_, .nil, spells_write .pretty 0 _ ?_, .nil⟩
    · rw [Json.text, String.toList_ofList, List.nil_append, List.append_nil]
    · simp [debugValue, Json.Exact, Json.ExactMembers, Json.ExactItems, Json.Number.Exact]
  keys := by
    simp [debugValue, KeysOnce, KeysOnceMembers, KeysOnceItems]
  valid := valid_debugValue

theorem valid_values_are_read_debug : ∃ c, Config.parse (debugValue.text .pretty) = .ok c ∧
    c.logging.level.name = "debug" ∧ c.rootType = some "Query" ∧ c.schema = none ∧
    c.output.pretty = true := by
  obtain ⟨document, hprinted, hsound⟩ := valid_values_are_read
  have hdocument := (hprinted [] [] ⟨FileTree.empty [], [], ⟨2024, 1, 1, 0, 0, 0, 0⟩⟩).symm.trans
    parse_publishedText
  cases hdocument
  obtain ⟨c, hc, ⟨hgiven, habsent⟩, -⟩ := hsound _ _ accepted_debugValue
  have hslot (i : Nat) (hi : i < slots.length) : slots[i] ∈ slots := List.getElem_mem hi
  have hlevel : Kind.level.toJson c.logging.level = .string "debug" :=
    hgiven slots[4] (hslot 4 (by decide)) _ rfl
  have hroot : Kind.optionalText.toJson c.rootType = .string "Query" :=
    hgiven slots[9] (hslot 9 (by decide)) _ rfl
  have hschema : Kind.optionalPath.toJson c.schema = .null :=
    hgiven slots[10] (hslot 10 (by decide)) _ rfl
  refine ⟨c, hc, Json.string.inj hlevel, ?_, ?_, habsent slots[8] (hslot 8 (by decide)) rfl⟩
  · cases h : c.rootType with
    | none =>
      rw [h] at hroot
      cases hroot
    | some name =>
      rw [h] at hroot
      exact congrArg some (Json.string.inj hroot)
  · cases h : c.schema with
    | none => rfl
    | some path =>
      rw [h] at hschema
      cases hschema

end Config

end GraphShape
