import GraphShape.Proofs.Conformity
import GraphShape.Proofs.Fragments

/-!
# What the schema of a union accepts

A union is a choice of exactly one member. The key fact is that two members overlap only in
identifiers and in objects that do not tell their type, so an object with a type name is accepted
just by the member of that name.
-/

namespace GraphShape

theorem existsUnique_index_iff {α : Type} {xs : List α} (h : xs.Nodup) {P : α → Prop} :
    (∃! i : Nat, ∃ x, xs[i]? = some x ∧ P x) ↔ ∃! x, x ∈ xs ∧ P x := by
  constructor
  · rintro ⟨i, ⟨x, hx, hP⟩, honly⟩
    refine ⟨x, ⟨List.mem_of_getElem? hx, hP⟩, ?_⟩
    rintro y ⟨hy, hPy⟩
    obtain ⟨j, hj⟩ := List.getElem?_of_mem hy
    obtain rfl : j = i := honly j ⟨y, hj, hPy⟩
    exact Option.some.inj (hj.symm.trans hx)
  · rintro ⟨x, ⟨hx, hP⟩, honly⟩
    obtain ⟨i, hi⟩ := List.getElem?_of_mem hx
    refine ⟨i, ⟨x, hi, hP⟩, ?_⟩
    rintro j ⟨y, hj, hPy⟩
    obtain rfl : y = x := honly y ⟨List.mem_of_getElem? hj, hPy⟩
    have hlt := (List.getElem?_eq_some_iff.mp hj).1
    exact (List.getElem?_inj hlt h).mp (hj.trans hi.symm)

namespace Converter

/-- What is valid against the schema of a mention of an object type: the identifier of a collection
model, or the definition of a component. -/
def AcceptsMention (c : Converter) (doc : Schema) (other : Json → Json → Prop) (n : String)
    (v : Json) : Prop :=
  (c.IsCollection n ∧ Json.Accepts doc.toJson other (Schema.identifier n).toJson v) ∨
    (c.IsComponent n ∧ ∃ x, doc.definitions.get? n = some x ∧ Json.Accepts doc.toJson other x v)

variable {c : Converter} {doc : Schema} {other : Json → Json → Prop} {n m k : String} {v w : Json}
  {o : ObjectType} {s : Schema} {depth : Nat}

theorem not_component_of_collection (h : c.IsCollection n) : ¬ c.IsComponent n := by
  rintro ⟨o, ho, hpolicy⟩
  obtain ⟨o', ho', hpolicy'⟩ := h
  obtain rfl := TypeMap.object_inj ho ho'
  rw [hpolicy] at hpolicy'
  cases hpolicy'

theorem typename_of_accepts_shape (ho : o.Lawful) (hs : (c.shape depth o).outcome = .ok s)
    {doc : Json} (h : Json.Accepts doc other s.toJson v) :
    (∃ ws, v = .object ws) ∧ ∀ w, v.get? typenameProperty = some w → w = .string o.name := by
  obtain ⟨fragments, -, rfl⟩ := shape_ok hs
  obtain ⟨ws, rfl, -, hproperties⟩ := (accepts_shapeOf o fragments).mp h
  refine ⟨⟨ws, rfl⟩, ?_⟩
  intro w hw
  have htypename : (c.propertiesOf o fragments).get? typenameProperty =
      some (Schema.typename o.name).toJson := (propertiesOf_get?_iff ho).mpr (Or.inl ⟨rfl, rfl⟩)
  exact (Schema.accepts_typename o.name).mp (hproperties _ _ w htypename hw)

section Definitions

variable (hl : c.types.Lawful) (hnames : ∀ n ∈ Members.names c.types, isGraphQLName n = true)
  (h : c.definitions.outcome = .ok doc)
include hl hnames h

theorem acceptsMention_shape (ho : c.types.get? n = some (.object o)) (hpolicy : c.policy o = false) :
    ∃ s, (c.shape (c.depth none) o).outcome = .ok s ∧
      doc.toJson.at? (definitionPointer n) = some s.toJson ∧
      ∀ v, c.AcceptsMention doc other n v ↔ Json.Accepts doc.toJson other s.toJson v := by
  obtain ⟨s, hs, hget, hat⟩ := definitions_at? hl h ho (hnames n (Members.mem_names_of_get? ho))
  have hcomponent : c.IsComponent n := ⟨o, ho, hpolicy⟩
  refine ⟨s, hs, hat, fun v => ⟨?_, fun hv => Or.inr ⟨hcomponent, _, hget, hv⟩⟩⟩
  rintro (⟨hcollection, -⟩ | ⟨-, x, hx, hv⟩)
  · exact absurd hcomponent (not_component_of_collection hcollection)
  · rw [hget, Option.some.injEq] at hx
    exact hx ▸ hv

theorem accepts_mentioned_iff (ho : c.types.get? n = some (.object o)) :
    Json.Accepts doc.toJson other (c.mentioned o).toJson v ↔ c.AcceptsMention doc other n v := by
  rw [mentioned, hl.object_name ho]
  cases hpolicy : c.policy o with
  | true =>
    have hcollection : c.IsCollection n := ⟨o, ho, hpolicy⟩
    simp [AcceptsMention, hcollection, not_component_of_collection hcollection]
  | false =>
    obtain ⟨s, hs, hat, hiff⟩ := acceptsMention_shape hl hnames h ho hpolicy
    rw [if_neg Bool.false_ne_true, Schema.accepts_reference hat (shape_isDirect hs), hiff]

theorem accepts_union_iff {u : String} {members : List String} {b : Bool}
    (hobjects : ∀ m ∈ members, ∃ o, c.types.get? m = some (.object o)) (hdistinct : members.Nodup)
    (hn : c.types.get? n = some (.union u members)) (hs : c.Generates (.named n b) s) :
    Json.Accepts doc.toJson other s.toJson v ↔
      ∃! m, m ∈ members ∧ c.AcceptsMention doc other m v := by
  obtain ⟨choices, hall, rfl⟩ := hs.union hn
  rw [Schema.accepts_oneOf, ← existsUnique_index_iff hdistinct]
  refine existsUnique_congr (fun i => ?_)
  have hmember : ∀ {m s}, m ∈ members → c.Generates (.named m false) s →
      (Json.Accepts doc.toJson other s.toJson v ↔ c.AcceptsMention doc other m v) := by
    intro m s hm hs
    obtain ⟨o, ho⟩ := hobjects m hm
    rw [hs.object ho]
    exact accepts_mentioned_iff hl hnames h ho
  constructor
  · rintro ⟨s, hs, hv⟩
    obtain ⟨m, hm, hgenerates⟩ := forall₂_getElem?_right hall hs
    exact ⟨m, hm, (hmember (List.mem_of_getElem? hm) hgenerates).mp hv⟩
  · rintro ⟨m, hm, hv⟩
    obtain ⟨s, hs, hgenerates⟩ := forall₂_getElem?_left hall hm
    exact ⟨s, hs, (hmember (List.mem_of_getElem? hm) hgenerates).mpr hv⟩

variable (hfields : ∀ o ∈ c.types.objects, o.Lawful)
include hfields

theorem typename_of_acceptsMention (hm : c.IsComponent m) (hv : c.AcceptsMention doc other m v) :
    (∃ ws, v = .object ws) ∧ ∀ w, v.get? typenameProperty = some w → w = .string m := by
  obtain ⟨o, ho, hpolicy⟩ := hm
  obtain ⟨s, hs, -, hiff⟩ := acceptsMention_shape hl hnames h ho hpolicy
  rw [← hl.object_name ho]
  exact typename_of_accepts_shape (hfields o (hl.mem_objects_of_get? ho)) hs ((hiff v).mp hv)

theorem overlap_of_acceptsMention (hm : c.AcceptsMention doc other m v)
    (hk : c.AcceptsMention doc other k v) (hne : k ≠ m) :
    (c.IsCollection m ∧ c.IsCollection k ∧ ∃ text, v = .string text) ∨
      (c.IsComponent m ∧ c.IsComponent k ∧ (∃ ws, v = .object ws) ∧
        v.get? typenameProperty = none) := by
  have htext : ∀ {n}, Json.Accepts doc.toJson other (Schema.identifier n).toJson v →
      ∃ text, v = .string text := fun {n} hv => (Schema.accepts_identifier n).mp hv
  rcases id hm with ⟨hmc, hmv⟩ | ⟨hmc, -⟩
  · obtain ⟨text, rfl⟩ := htext hmv
    rcases id hk with ⟨hkc, -⟩ | ⟨hkc, -⟩
    · exact Or.inl ⟨hmc, hkc, text, rfl⟩
    · obtain ⟨⟨ws, hws⟩, -⟩ := typename_of_acceptsMention hl hnames h hfields hkc hk
      cases hws
  · obtain ⟨⟨ws, rfl⟩, hmname⟩ := typename_of_acceptsMention hl hnames h hfields hmc hm
    rcases id hk with ⟨-, hkv⟩ | ⟨hkc, -⟩
    · obtain ⟨text, hws⟩ := htext hkv
      cases hws
    · refine Or.inr ⟨hmc, hkc, ⟨ws, rfl⟩, ?_⟩
      obtain ⟨-, hkname⟩ := typename_of_acceptsMention hl hnames h hfields hkc hk
      cases hw : (Json.object ws).get? typenameProperty with
      | none => rfl
      | some w =>
        have heq := (hkname w hw).symm.trans (hmname w hw)
        exact absurd (Json.string.inj heq) hne

theorem acceptsMention_bare (ho : c.types.get? n = some (.object o)) (hpolicy : c.policy o = false)
    (hrequired : requiredNames o.fields = []) {ws : Members Json}
    (hws : ∀ k w, ws.get? k = some w → k = typenameProperty ∧ w = .string n) :
    c.AcceptsMention doc other n (.object ws) := by
  obtain ⟨s, hs, -, hiff⟩ := acceptsMention_shape hl hnames h ho hpolicy
  obtain ⟨fragments, -, rfl⟩ := shape_ok hs
  have hlawful := hfields o (hl.mem_objects_of_get? ho)
  refine (hiff _).mpr ((accepts_shapeOf o fragments).mpr ⟨ws, rfl, by simp [hrequired], ?_⟩)
  intro k x w hx hw
  obtain ⟨rfl, rfl⟩ := hws k w hw
  rcases (propertiesOf_get?_iff hlawful).mp hx with ⟨-, rfl⟩ | ⟨hne, -⟩
  · rw [Schema.accepts_typename, hl.object_name ho]
  · exact absurd rfl hne

end Definitions

theorem acceptsMention_identifier (hn : c.IsCollection n) (text : String) :
    c.AcceptsMention doc other n (.string text) :=
  Or.inl ⟨hn, (Schema.accepts_identifier n).mpr ⟨text, rfl⟩⟩

theorem exists_generates_union (hunions : UnionsOfObjects c.types) {u : String}
    {members : List String} (hn : c.types.get? n = some (.union u members)) (b : Bool) :
    ∃ s, c.Generates (.named n b) s := by
  apply exists_generates (hunions.acyclic.grounded _)
  intro k hk
  rcases Relation.ReflTransGen.cases_tail (TypeMap.mem_metWithin hk) with heq | ⟨m, -, u, ms, hm, hk⟩
  · exact Or.inr (Or.inl ⟨u, members, heq ▸ hn⟩)
  · exact Or.inl (hunions m u ms hm k hk)

/-- **Unions.** A value of a member is one of the union unless another member accepts it too. -/
theorem union_accepts_member_iff {c : Converter} (hl : c.types.Lawful)
    (hnames : ∀ n ∈ Members.names c.types, isGraphQLName n = true)
    (hfields : ∀ o ∈ c.types.objects, o.Lawful) (hunions : UnionsOfObjects c.types) {doc : Schema}
    (h : c.definitions.outcome = .ok doc) {n u : String} {members : List String}
    (hn : c.types.get? n = some (.union u members)) (hdistinct : members.Nodup)
    (other : Json → Json → Prop) (b : Bool) :
    ∃ s, (∀ s', c.Generates (.named n b) s' ↔ s' = s) ∧
      ∀ m ∈ members, ∀ v, c.AcceptsMention doc other m v →
        (Json.Accepts doc.toJson other s.toJson v ↔
          ∀ k ∈ members, c.AcceptsMention doc other k v → k = m) ∧
        ∀ k ∈ members, c.AcceptsMention doc other k v → k ≠ m →
          (c.IsCollection m ∧ c.IsCollection k ∧ ∃ text, v = .string text) ∨
            (c.IsComponent m ∧ c.IsComponent k ∧ (∃ ws, v = .object ws) ∧
              v.get? typenameProperty = none) := by
  obtain ⟨s, hs⟩ := exists_generates_union hunions hn b
  refine ⟨s, fun s' => hs.iff_eq, ?_⟩
  intro m hm v hv
  refine ⟨?_, fun k _ hk => overlap_of_acceptsMention hl hnames h hfields hv hk⟩
  rw [accepts_union_iff hl hnames h (hunions n u members hn) hdistinct hn hs]
  constructor
  · rintro ⟨k, -, honly⟩ k' hk' hv'
    exact (honly k' ⟨hk', hv'⟩).trans (honly m ⟨hm, hv⟩).symm
  · intro honly
    exact ⟨m, ⟨hm, hv⟩, fun k hk => honly k hk.1 hk.2⟩

def partyTypes : TypeMap := TypeMap.ofDefs
  [.object ⟨"Query", none,
      [⟨"owner", .named "Owner" false, none⟩, ⟨"figure", .named "Figure" false, none⟩,
        ⟨"author", .named "Author" false, none⟩]⟩,
    .object ⟨"User", none, [⟨"id", .named "ID" true, none⟩]⟩,
    .object ⟨"Team", none, [⟨"id", .named "ID" true, none⟩]⟩,
    .object ⟨"Circle", none, [⟨"radius", .named "Float" false, none⟩]⟩,
    .object ⟨"Square", none, [⟨"side", .named "Float" false, none⟩]⟩,
    .union "Owner" ["User", "Team"],
    .union "Figure" ["Circle", "Square"],
    .union "Author" ["User", "Circle"],
    .scalar "ID",
    .scalar "Float"]

/-- Users and teams have identifiers, circles and squares have none. -/
def partyConverter : Converter := plain partyTypes Policy.standard

theorem partyTypes_lawful : partyTypes.Lawful := TypeMap.ofDefs_lawful _

theorem partyTypes_names : ∀ n ∈ Members.names partyTypes, isGraphQLName n = true := by decide

theorem partyTypes_fields : ∀ o ∈ partyTypes.objects, o.Lawful := by
  have hall : ∀ o ∈ partyTypes.objects, (o.fields.map Field.name).Nodup := by decide
  exact hall

theorem partyTypes_unions : UnionsOfObjects partyTypes := unionsOfObjects_of_all (by decide)

/-- Users and teams have identifiers alike, and the empty object fits circles and squares. -/
theorem shared_values_rejected : ∃ doc owner figure, partyTypes.Lawful ∧
    UnionsOfObjects partyTypes ∧ partyConverter.definitions.outcome = .ok doc ∧
    partyConverter.Generates (.named "Owner" false) owner ∧
    partyConverter.AcceptsMention doc (fun _ _ => True) "User" (.string "7") ∧
    ¬ Json.Accepts doc.toJson (fun _ _ => True) owner.toJson (.string "7") ∧
    partyConverter.Generates (.named "Figure" false) figure ∧
    partyConverter.AcceptsMention doc (fun _ _ => True) "Circle" (.object []) ∧
    ¬ Json.Accepts doc.toJson (fun _ _ => True) figure.toJson (.object []) := by
  obtain ⟨doc, h⟩ := exists_ok (x := partyConverter.definitions.outcome) (by decide)
  obtain ⟨owner, howner⟩ : ∃ s, partyConverter.Generates (.named "Owner" false) s :=
    exists_generates_union partyTypes_unions rfl false
  obtain ⟨figure, hfigure⟩ : ∃ s, partyConverter.Generates (.named "Figure" false) s :=
    exists_generates_union partyTypes_unions rfl false
  have hempty : ∀ {n o}, partyTypes.get? n = some (.object o) →
      partyConverter.policy o = false → requiredNames o.fields = [] →
      partyConverter.AcceptsMention doc (fun _ _ => True) n (.object []) :=
    fun ho hpolicy hrequired => acceptsMention_bare partyTypes_lawful partyTypes_names h
      partyTypes_fields ho hpolicy hrequired (by simp [Members.get?])
  have huser : partyConverter.AcceptsMention doc (fun _ _ => True) "User" (.string "7") :=
    acceptsMention_identifier ⟨_, rfl, rfl⟩ "7"
  have hcircle := hempty (n := "Circle") rfl rfl rfl
  refine ⟨doc, owner, figure, partyTypes_lawful, partyTypes_unions, h, howner, huser, ?_, hfigure,
    hcircle, ?_⟩
  · rw [accepts_union_iff partyTypes_lawful partyTypes_names h
      (partyTypes_unions "Owner" "Owner" _ rfl) (by decide) rfl howner]
    rintro ⟨m, -, honly⟩
    have hteam : partyConverter.AcceptsMention doc (fun _ _ => True) "Team" (.string "7") :=
      acceptsMention_identifier ⟨_, rfl, rfl⟩ "7"
    have heq := (honly "User" ⟨by decide, huser⟩).trans (honly "Team" ⟨by decide, hteam⟩).symm
    exact absurd heq (by decide)
  · rw [accepts_union_iff partyTypes_lawful partyTypes_names h
      (partyTypes_unions "Figure" "Figure" _ rfl) (by decide) rfl hfigure]
    rintro ⟨m, -, honly⟩
    have hsquare := hempty (n := "Square") rfl rfl rfl
    have heq := (honly "Circle" ⟨by decide, hcircle⟩).trans
      (honly "Square" ⟨by decide, hsquare⟩).symm
    exact absurd heq (by decide)

theorem union_accepts_member_iff_authors : ∃ doc s, partyTypes.Lawful ∧
    (∀ n ∈ Members.names partyTypes, isGraphQLName n = true) ∧
    (∀ o ∈ partyTypes.objects, o.Lawful) ∧ UnionsOfObjects partyTypes ∧
    partyConverter.definitions.outcome = .ok doc ∧
    partyTypes.get? "Author" = some (.union "Author" ["User", "Circle"]) ∧
    ["User", "Circle"].Nodup ∧ "User" ∈ ["User", "Circle"] ∧
    partyConverter.AcceptsMention doc (fun _ _ => True) "User" (.string "7") ∧
    partyConverter.Generates (.named "Author" false) s ∧
    Json.Accepts doc.toJson (fun _ _ => True) s.toJson (.string "7") := by
  obtain ⟨doc, h⟩ := exists_ok (x := partyConverter.definitions.outcome) (by decide)
  have hauthor : partyTypes.get? "Author" = some (.union "Author" ["User", "Circle"]) := rfl
  have huser : partyConverter.AcceptsMention doc (fun _ _ => True) "User" (.string "7") :=
    acceptsMention_identifier ⟨_, rfl, rfl⟩ "7"
  obtain ⟨s, hs, hmembers⟩ := union_accepts_member_iff (c := partyConverter) partyTypes_lawful
    partyTypes_names partyTypes_fields partyTypes_unions h hauthor (by decide) (fun _ _ => True)
    false
  obtain ⟨haccepts, hoverlap⟩ := hmembers "User" (by decide) (.string "7") huser
  refine ⟨doc, s, partyTypes_lawful, partyTypes_names, partyTypes_fields, partyTypes_unions, h,
    hauthor, by decide, by decide, huser, (hs s).mpr rfl, haccepts.mpr ?_⟩
  intro k hk hv
  by_contra hne
  obtain rfl : k = "Circle" := by simpa [hne] using hk
  have hcircle : partyConverter.IsComponent "Circle" := ⟨_, rfl, rfl⟩
  rcases hoverlap "Circle" hk hv hne with ⟨-, hcollection, -⟩ | ⟨-, -, ⟨ws, hws⟩, -⟩
  · exact not_component_of_collection hcollection hcircle
  · cases hws

/-- **Discrimination.** A type name tells the one member that may accept an object. -/
theorem union_selects_typename {c : Converter} (hl : c.types.Lawful)
    (hnames : ∀ n ∈ Members.names c.types, isGraphQLName n = true)
    (hfields : ∀ o ∈ c.types.objects, o.Lawful) (hunions : UnionsOfObjects c.types) {doc : Schema}
    (h : c.definitions.outcome = .ok doc) {n u : String} {members : List String}
    (hn : c.types.get? n = some (.union u members)) (hdistinct : members.Nodup)
    (other : Json → Json → Prop) (b : Bool) :
    ∃ s, (∀ s', c.Generates (.named n b) s' ↔ s' = s) ∧
      ∀ v w, v.get? typenameProperty = some w →
        (Json.Accepts doc.toJson other s.toJson v ↔
          ∃ m ∈ members, w = .string m ∧ c.IsComponent m ∧
            ∃ x, doc.definitions.get? m = some x ∧ Json.Accepts doc.toJson other x v) ∧
        ∀ m ∈ members, ∀ k ∈ members, c.AcceptsMention doc other m v →
          c.AcceptsMention doc other k v → m = k := by
  obtain ⟨s, hs⟩ := exists_generates_union hunions hn b
  refine ⟨s, fun s' => hs.iff_eq, ?_⟩
  intro v w hw
  have hcomponent : ∀ {m}, c.AcceptsMention doc other m v → w = .string m ∧ c.IsComponent m ∧
      ∃ x, doc.definitions.get? m = some x ∧ Json.Accepts doc.toJson other x v := by
    intro m hv
    rcases id hv with ⟨-, hidentifier⟩ | ⟨hm, hx⟩
    · obtain ⟨text, rfl⟩ := (Schema.accepts_identifier m).mp hidentifier
      cases hw
    · exact ⟨(typename_of_acceptsMention hl hnames h hfields hm hv).2 w hw, hm, hx⟩
  have honly : ∀ {m k}, c.AcceptsMention doc other m v → c.AcceptsMention doc other k v → m = k := by
    intro m k hm hk
    exact Json.string.inj ((hcomponent hm).1.symm.trans (hcomponent hk).1)
  refine ⟨?_, fun m _ k _ => honly⟩
  rw [accepts_union_iff hl hnames h (hunions n u members hn) hdistinct hn hs]
  constructor
  · rintro ⟨m, ⟨hm, hv⟩, -⟩
    exact ⟨m, hm, hcomponent hv⟩
  · rintro ⟨m, hm, -, hx⟩
    exact ⟨m, ⟨hm, Or.inr hx⟩, fun k hk => honly hk.2 (Or.inr hx)⟩

theorem union_selects_typename_figures : ∃ doc s, partyTypes.Lawful ∧
    (∀ n ∈ Members.names partyTypes, isGraphQLName n = true) ∧
    (∀ o ∈ partyTypes.objects, o.Lawful) ∧ UnionsOfObjects partyTypes ∧
    partyConverter.definitions.outcome = .ok doc ∧
    partyTypes.get? "Figure" = some (.union "Figure" ["Circle", "Square"]) ∧
    ["Circle", "Square"].Nodup ∧ partyConverter.Generates (.named "Figure" false) s ∧
    Json.Accepts doc.toJson (fun _ _ => True) s.toJson
      (.object [(typenameProperty, .string "Square")]) ∧
    ¬ Json.Accepts doc.toJson (fun _ _ => True) s.toJson
      (.object [(typenameProperty, .string "User")]) := by
  obtain ⟨doc, h⟩ := exists_ok (x := partyConverter.definitions.outcome) (by decide)
  have hfigure : partyTypes.get? "Figure" = some (.union "Figure" ["Circle", "Square"]) := rfl
  obtain ⟨s, hs, hselects⟩ := union_selects_typename (c := partyConverter) partyTypes_lawful
    partyTypes_names partyTypes_fields partyTypes_unions h hfigure (by decide) (fun _ _ => True)
    false
  have hsquare : partyConverter.AcceptsMention doc (fun _ _ => True) "Square"
      (.object [(typenameProperty, .string "Square")]) := by
    refine acceptsMention_bare partyTypes_lawful partyTypes_names h partyTypes_fields
      (o := ⟨"Square", none, [⟨"side", .named "Float" false, none⟩]⟩) rfl rfl rfl ?_
    intro k w hw
    simpa using Members.mem_of_get? hw
  refine ⟨doc, s, partyTypes_lawful, partyTypes_names, partyTypes_fields, partyTypes_unions, h,
    hfigure, by decide, (hs s).mpr rfl, (hselects _ _ rfl).1.mpr ?_, ?_⟩
  · rcases hsquare with ⟨hcollection, -⟩ | ⟨hcomponent, hx⟩
    · exact absurd ⟨_, rfl, rfl⟩ (not_component_of_collection hcollection)
    · exact ⟨"Square", by decide, rfl, hcomponent, hx⟩
  · intro hv
    obtain ⟨m, hm, hname, -⟩ := (hselects _ _ rfl).1.mp hv
    obtain rfl := Json.string.inj hname
    exact absurd hm (by decide)

end Converter

end GraphShape
