import GraphShape.Proofs.Unions

/-!
# Items that may be null

The schema of items that may be null is a choice of exactly one of null and the schema of the items.
The key fact is that null fits both only where the items have a custom scalar type, possibly through
unions: objects, identifiers, lists, enumerations and the scalars of the language exclude null.
-/

namespace GraphShape

namespace Converter

variable {c : Converter} {doc : Schema} {other : Json → Json → Prop} {t : TypeRef} {n : String}
  {b : Bool} {s : Schema}

theorem custom_of_accepts_scalar_null {doc : Json} {u : String}
    (hn : c.types.get? n = some (.scalar u))
    (hnull : Json.Accepts doc other (c.scalarSchema n).toJson .null) :
    c.IsCustom n ∧ Json.Accepts doc other (c.customSchema n).toJson .null := by
  rw [scalarSchema] at hnull
  cases hprimitive : primitiveTypes.get? n with
  | none =>
    rw [hprimitive] at hnull
    exact ⟨⟨⟨u, hn⟩, hprimitive⟩, hnull⟩
  | some type =>
    obtain ⟨htype, hne⟩ := typeName_of_primitive hprimitive
    rw [hprimitive] at hnull
    exact absurd ((Schema.accepts_primitive htype).mp hnull).symm hne

section Definitions

variable (hl : c.types.Lawful) (hnames : ∀ n ∈ Members.names c.types, isGraphQLName n = true)
  (h : c.definitions.outcome = .ok doc)
include hl hnames h

theorem not_acceptsMention_null : ¬ c.AcceptsMention doc other n .null := by
  intro hnull
  rcases id hnull with ⟨-, hidentifier⟩ | ⟨⟨o, ho, hpolicy⟩, -⟩
  · obtain ⟨text, htext⟩ := (Schema.accepts_identifier n).mp hidentifier
    cases htext
  · obtain ⟨s, hs, -, hiff⟩ := acceptsMention_shape hl hnames h ho hpolicy
    obtain ⟨fragments, -, rfl⟩ := shape_ok hs
    obtain ⟨ws, hws, -⟩ := (accepts_shapeOf o fragments).mp ((hiff _).mp hnull)
    cases hws

theorem custom_of_accepts_null (hs : c.Generates t s)
    (hnull : Json.Accepts doc.toJson other s.toJson .null) :
    ∃ n b k, t = .named n b ∧ Relation.ReflTransGen c.types.HasMember n k ∧ c.IsCustom k ∧
      Json.Accepts doc.toJson other (c.customSchema k).toJson .null := by
  obtain ⟨depth, hs⟩ := hs
  revert hnull
  apply schema_induct c (P := fun t s => Json.Accepts doc.toJson other s.toJson .null →
    ∃ n b k, t = .named n b ∧ Relation.ReflTransGen c.types.HasMember n k ∧ c.IsCustom k ∧
      Json.Accepts doc.toJson other (c.customSchema k).toJson .null)
    ?list ?object ?union ?scalar ?enum hs
  case list =>
    intro t b s _ hnull
    obtain ⟨ws, hws, -⟩ := (Schema.accepts_array _).mp hnull
    cases hws
  case object =>
    intro n b o hn hnull
    exact absurd ((accepts_mentioned_iff hl hnames h hn).mp hnull)
      (not_acceptsMention_null hl hnames h)
  case union =>
    intro n b u members choices hn hall hnull
    -- Any member that accepts null will do, whether or not it is the only one.
    obtain ⟨i, ⟨s, hs, haccepts⟩, -⟩ := (Schema.accepts_oneOf choices).mp hnull
    obtain ⟨m, hm, hmember⟩ := forall₂_getElem?_right hall hs
    obtain ⟨m', b', k, hnamed, hreaches, hk⟩ := hmember haccepts
    cases hnamed
    exact ⟨n, b, k, rfl, hreaches.head ⟨u, members, hn, List.mem_of_getElem? hm⟩, hk⟩
  case scalar =>
    intro n b u hn hnull
    exact ⟨n, b, n, rfl, .refl, custom_of_accepts_scalar_null hn hnull⟩
  case enum =>
    intro n b e values _ hnull
    obtain ⟨text, -, htext⟩ := (Schema.accepts_enumeration e values).mp hnull
    cases htext

end Definitions

/-- **Nullable items.** Null joins the values of a schema just when the schema excludes it. -/
theorem nullable_items_iff {c : Converter} {t : TypeRef} {b : Bool} {s : Schema}
    (h : c.Generates (.list t b) s) (ht : t.nonNull = false) :
    ∃ inner items, (∀ s', c.Generates t s' ↔ s' = inner) ∧ s.get? "items" = some items ∧
      (∀ doc other, (∀ v, Json.Accepts doc other items v ↔
          v = .null ∨ Json.Accepts doc other inner.toJson v) ↔
        ¬ Json.Accepts doc other inner.toJson .null) ∧
      (∀ doc other v, v ≠ .null →
        (Json.Accepts doc other items v ↔ Json.Accepts doc other inner.toJson v)) ∧
      ∀ (doc : Schema) (other : Json → Json → Prop), c.types.Lawful →
        (∀ n ∈ Members.names c.types, isGraphQLName n = true) →
        c.definitions.outcome = .ok doc → Json.Accepts doc.toJson other inner.toJson .null →
        ∃ n b k, t = .named n b ∧ Relation.ReflTransGen c.types.HasMember n k ∧ c.IsCustom k ∧
          Json.Accepts doc.toJson other (c.customSchema k).toJson .null := by
  obtain ⟨inner, hinner, rfl⟩ := h.list
  rw [ht, Schema.item, if_neg Bool.false_ne_true]
  refine ⟨inner, _, fun s' => hinner.iff_eq, rfl, ?_, ?_, ?_⟩
  · intro doc other
    constructor
    · intro hitems hnull
      have hboth := (hitems .null).mpr (Or.inl rfl)
      rw [accepts_nullable] at hboth
      rcases hboth with ⟨-, hnot⟩ | ⟨hne, -⟩
      · exact hnot hnull
      · exact hne rfl
    · intro hnull v
      rw [accepts_nullable]
      by_cases hv : v = .null
      · simp [hv, hnull]
      · simp [hv]
  · intro doc other v hv
    rw [accepts_nullable]
    simp [hv]
  · intro doc other hl hnames hdoc hnull
    exact custom_of_accepts_null hl hnames hdoc hinner hnull

def valueTypes : TypeMap := TypeMap.ofDefs
  [.object ⟨"Query", none,
      [⟨"labels", .list (.named "String" false) false, none⟩,
        ⟨"values", .list (.named "JSON" false) false, none⟩]⟩,
    .scalar "String",
    .scalar "JSON"]

/-- Labels are texts, values are of a scalar without a schema. -/
def valueConverter : Converter := plain valueTypes Policy.standard

/-- Null is a value of any scalar without a schema, but no item of a list of such values. -/
theorem null_value_rejected : ∃ doc s items inner,
    valueConverter.definitions.outcome = .ok doc ∧
    valueConverter.Generates (.list (.named "JSON" false) false) s ∧
    s.get? "items" = some items ∧ valueConverter.Generates (.named "JSON" false) inner ∧
    Json.Accepts doc.toJson (fun _ _ => True) inner.toJson .null ∧
    ¬ Json.Accepts doc.toJson (fun _ _ => True) items .null := by
  obtain ⟨doc, h⟩ := exists_ok (x := valueConverter.definitions.outcome) (by decide)
  have hnull : Json.Accepts doc.toJson (fun _ _ => True) Schema.empty.toJson .null :=
    Json.accepts_nil
  refine ⟨doc, _, _, Schema.empty, h, ⟨2, rfl⟩, rfl, ⟨1, rfl⟩, hnull, ?_⟩
  intro hitem
  rcases (accepts_nullable Schema.empty).mp hitem with ⟨-, hnot⟩ | ⟨hne, -⟩
  · exact hnot hnull
  · exact hne rfl

theorem nullable_items_iff_labels : ∃ doc labels values items inner, valueTypes.Lawful ∧
    (∀ n ∈ Members.names valueTypes, isGraphQLName n = true) ∧
    valueConverter.definitions.outcome = .ok doc ∧
    valueConverter.Generates (.list (.named "String" false) false) labels ∧
    labels.get? "items" = some items ∧ Json.Accepts doc.toJson (fun _ _ => True) items .null ∧
    Json.Accepts doc.toJson (fun _ _ => True) items (.string "Emma") ∧
    ¬ Json.Accepts doc.toJson (fun _ _ => True) items (.bool true) ∧
    valueConverter.Generates (.list (.named "JSON" false) false) values ∧
    valueConverter.Generates (.named "JSON" false) inner ∧
    Json.Accepts doc.toJson (fun _ _ => True) inner.toJson .null ∧
    ∃ k, valueConverter.IsCustom k := by
  have hl : valueTypes.Lawful := TypeMap.ofDefs_lawful _
  have hnames : ∀ n ∈ Members.names valueTypes, isGraphQLName n = true := by decide
  obtain ⟨doc, h⟩ := exists_ok (x := valueConverter.definitions.outcome) (by decide)
  have hlabels : valueConverter.Generates (.list (.named "String" false) false)
      (Schema.array (Schema.item false (Schema.primitive "string"))) := ⟨2, rfl⟩
  have hvalues : valueConverter.Generates (.list (.named "JSON" false) false)
      (Schema.array (Schema.item false Schema.empty)) := ⟨2, rfl⟩
  have hlabel : valueConverter.Generates (.named "String" false) (Schema.primitive "string") :=
    ⟨1, rfl⟩
  have hvalue : valueConverter.Generates (.named "JSON" false) Schema.empty := ⟨1, rfl⟩
  have htext : ∀ v, Json.Accepts doc.toJson (fun _ _ => True) (Schema.primitive "string").toJson v ↔
      v.typeName = "string" := fun v => Schema.accepts_primitive (by decide)
  have hnull : Json.Accepts doc.toJson (fun _ _ => True) Schema.empty.toJson .null :=
    Json.accepts_nil
  obtain ⟨inner, items, honly, hitems, hiff, hother, -⟩ := nullable_items_iff hlabels rfl
  obtain rfl := (honly _).mp hlabel
  have hclaim := (hiff doc.toJson (fun _ _ => True)).mpr (by rw [htext]; decide)
  obtain ⟨inner, _, honly, -, -, -, hcustom⟩ := nullable_items_iff hvalues rfl
  obtain rfl := (honly _).mp hvalue
  obtain ⟨-, -, k, -, -, hk, -⟩ := hcustom doc (fun _ _ => True) hl hnames h hnull
  refine ⟨doc, _, _, items, _, hl, hnames, h, hlabels, hitems, (hclaim .null).mpr (Or.inl rfl),
    (hother _ _ _ (by simp)).mpr ((htext _).mpr rfl), ?_, hvalues, hvalue, hnull, k, hk⟩
  rw [hother _ _ _ (by simp), htext]
  decide

end Converter

end GraphShape
