import GraphShape.Proofs.Shapes
import GraphShape.Json.Pointer
import Mathlib.Logic.ExistsUnique
import Mathlib.Order.Basic

/-!
# What a schema means

Whether a value is valid against a schema in a document. The key fact is that a reference is only
followed to a schema that looks no further than below the value, so validity is defined by
recursion on the value, also when the definitions of a document refer to each other.
-/

namespace GraphShape

namespace Json

def typeName : Json → String
  | null => "null"
  | bool _ => "boolean"
  | number _ => "number"
  | string _ => "string"
  | array _ => "array"
  | object _ => "object"

def typeNames : List String := ["null", "boolean", "number", "string", "array", "object"]

def isText : Json → Bool
  | string _ => true
  | _ => false

/-- No other schema is asked about the same value. -/
def isDirect : Json → Bool
  | object ms => !(Members.has ms "$ref" || Members.has ms "oneOf" || Members.has ms "not")
  | _ => true

/-- A keyword that a document is made of, with a value of its kind. A reference has to lead to a
schema that asks no other about the same value. -/
def isModelled (doc : Json) (keyword : String) (x : Json) : Bool :=
  match keyword, x with
  | "title", _ => true
  | "description", _ => true
  | "type", string t => typeNames.contains t
  | "const", string _ => true
  | "enum", array xs => xs.all isText
  | "not", _ => true
  | "oneOf", array _ => true
  | "items", _ => true
  | "properties", object _ => true
  | "required", array xs => xs.all isText
  | "$ref", string r => ((doc.at? r).map isDirect).getD false
  | _, _ => false

/-- A truth value, or an object whose keywords are all modelled. -/
def isPlain (doc : Json) : Json → Bool
  | bool _ => true
  | object ms => ms.all (fun m => isModelled doc m.1 m.2)
  | _ => false

/-! ## Sizes -/

theorem sizeOf_get?_lt {j x : Json} {k : String} (h : j.get? k = some x) : sizeOf x < sizeOf j := by
  cases j with
  | object ms =>
    have hlt := List.sizeOf_lt_of_mem (Members.mem_of_get? (show Members.get? ms k = some x from h))
    simp only [Prod.mk.sizeOf_spec] at hlt
    rw [object.sizeOf_spec]
    omega
  | _ => cases h

theorem sizeOf_item_lt {xs : List Json} {x : Json} (h : x ∈ xs) : sizeOf x < sizeOf (array xs) := by
  have hlt := List.sizeOf_lt_of_mem h
  rw [array.sizeOf_spec]
  omega

/-- A schema that asks others about the same value stands above one that does not. -/
def rank (s : Json) : Nat := if s.isDirect then 0 else 1

theorem rank_le (s : Json) : s.rank ≤ 1 := by
  unfold rank
  split <;> omega

theorem rank_of_get? {s x : Json} {k : String} (hk : k = "$ref" ∨ k = "oneOf" ∨ k = "not")
    (h : s.get? k = some x) : s.rank = 1 := by
  cases s with
  | object ms =>
    have hhas : Members.has ms k = true := by
      rw [Members.has, show Members.get? ms k = some x from h]
      rfl
    rw [rank, if_neg]
    rcases hk with rfl | rfl | rfl <;> simp [isDirect, hhas]
  | _ => cases h

theorem measure_lt {value rank rank' size size' : Nat} (hrank : rank ≤ rank') (hsize : size < size') :
    Prod.Lex (· < ·) (Prod.Lex (· < ·) (· < ·)) (value, rank, size) (value, rank', size') := by
  apply Prod.Lex.right
  rcases Nat.lt_or_eq_of_le hrank with h | rfl
  · exact Prod.Lex.left _ _ h
  · exact Prod.Lex.right _ hsize

/-! ## Validity -/

/-- A value is valid against a schema in a document. A schema whose keywords are not all modelled
has a meaning of its own. -/
def Accepts (doc : Json) (other : Json → Json → Prop) (s v : Json) : Prop :=
  if isPlain doc s then
    (∀ b, s = .bool b → b = true) ∧
    (∀ t, s.get? "type" = some (.string t) → v.typeName = t) ∧
    (∀ t, s.get? "const" = some (.string t) → v = .string t) ∧
    (∀ xs, s.get? "enum" = some (.array xs) → v ∈ xs) ∧
    (∀ x, (_ : s.get? "not" = some x) → ¬ Accepts doc other x v) ∧
    (∀ xs, (_ : s.get? "oneOf" = some (.array xs)) →
      ∃! i : Nat, ∃ x, ∃ _ : xs[i]? = some x, Accepts doc other x v) ∧
    (∀ x ws, s.get? "items" = some x → (_ : v = .array ws) → ∀ w, (_ : w ∈ ws) →
      Accepts doc other x w) ∧
    (∀ ps x k w, s.get? "properties" = some ps → ps.get? k = some x → (_ : v.get? k = some w) →
      Accepts doc other x w) ∧
    (∀ ks ws, s.get? "required" = some (Json.strings ks) → v = .object ws → ∀ k ∈ ks,
      k ∈ Members.names ws) ∧
    ∀ r x, (_ : s.get? "$ref" = some (.string r)) → doc.at? r = some x → (_ : x.isDirect = true) →
      Accepts doc other x v
  else other s v
termination_by (sizeOf v, s.rank, sizeOf s)
decreasing_by
  · rename_i hx
    exact measure_lt (rank_of_get? (Or.inr (Or.inr rfl)) hx ▸ rank_le x) (sizeOf_get?_lt hx)
  · rename_i hxs hx
    have hsize := Nat.lt_trans (sizeOf_item_lt (List.mem_of_getElem? hx)) (sizeOf_get?_lt hxs)
    exact measure_lt (rank_of_get? (Or.inr (Or.inl rfl)) hxs ▸ rank_le x) hsize
  · rename_i hv hw
    exact Prod.Lex.left _ _ (hv ▸ sizeOf_item_lt hw)
  · rename_i hw
    exact Prod.Lex.left _ _ (sizeOf_get?_lt hw)
  · rename_i hr _ hx
    apply Prod.Lex.right
    apply Prod.Lex.left
    rw [rank_of_get? (Or.inl rfl) hr, rank, if_pos hx]
    exact Nat.one_pos

/-- A meaning does not depend on annotations. -/
def IgnoresAnnotations (other : Json → Json → Prop) : Prop :=
  ∀ (ms : Members Json) k x v, k = "title" ∨ k = "description" →
    (other (.object (ms.put k x)) v ↔ other (.object ms) v)

variable {doc s v : Json} {other : Json → Json → Prop}

/-! ## Annotations -/

theorem isModelled_annotated {k : String} (hk : k = "title" ∨ k = "description") (x : Json) :
    isModelled doc k x = true := by
  rcases hk with rfl | rfl <;> rfl

theorem isPlain_put (ms : Members Json) {k : String} (x : Json)
    (hk : k = "title" ∨ k = "description") :
    isPlain doc (.object (ms.put k x)) = isPlain doc (.object ms) := by
  induction ms with
  | nil => exact Bool.and_eq_true_iff.mpr ⟨isModelled_annotated hk x, rfl⟩
  | cons m rest ih =>
    obtain ⟨n, y⟩ := m
    rw [Members.put]
    split
    · rename_i hn
      subst hn
      simp only [isPlain, List.all_cons, isModelled_annotated hk]
    · simp only [isPlain, List.all_cons] at ih ⊢
      rw [ih]

/-- Annotations change nothing. -/
theorem accepts_put_iff (ms : Members Json) {k : String} (x : Json)
    (hk : k = "title" ∨ k = "description")
    (h : isPlain doc (.object ms) = true ∨ IgnoresAnnotations other) :
    Accepts doc other (.object (ms.put k x)) v ↔ Accepts doc other (.object ms) v := by
  have hget : ∀ other, other ≠ "title" → other ≠ "description" →
      (object (ms.put k x)).get? other = (object ms).get? other := by
    intro other htitle hdescription
    apply Members.get?_put_of_ne
    rcases hk with rfl | rfl <;> assumption
  rw [Accepts, Accepts, isPlain_put ms x hk, hget "type" (by decide) (by decide),
    hget "const" (by decide) (by decide), hget "enum" (by decide) (by decide),
    hget "not" (by decide) (by decide), hget "oneOf" (by decide) (by decide),
    hget "items" (by decide) (by decide), hget "properties" (by decide) (by decide),
    hget "required" (by decide) (by decide), hget "$ref" (by decide) (by decide)]
  rcases h with hplain | hother
  · simp only [if_pos hplain, reduceCtorEq, false_implies, implies_true]
  · simp only [hother ms k x v hk, reduceCtorEq, false_implies, implies_true]

@[simp] theorem get?_bool (b : Bool) (k : String) : (bool b).get? k = none := rfl

@[simp] theorem get?_object (ms : Members Json) (k : String) :
    (object ms).get? k = Members.get? ms k := rfl

theorem accepts_bool (b : Bool) : Accepts doc other (.bool b) v ↔ b = true := by
  have hplain : isPlain doc (.bool b) = true := rfl
  rw [Accepts, if_pos hplain]
  simp

theorem accepts_nil : Accepts doc other (.object []) v := by
  have hplain : isPlain doc (.object []) = true := rfl
  rw [Accepts, if_pos hplain]
  simp [Members.get?]

end Json

namespace Schema

open Json

variable {doc v : Json} {other : Json → Json → Prop}

theorem accepts_members (s : Schema) :
    Accepts doc other (.object s.members) v ↔ Accepts doc other s.toJson v := by
  cases s with
  | keywords ms => rfl
  | always b =>
    cases b with
    | true => simp only [members, toJson, accepts_bool, accepts_nil]
    | false =>
      have hplain : isPlain doc (.object [("not", .object [])]) = true := rfl
      rw [members, toJson, accepts_bool, Accepts, if_pos hplain]
      simp [Members.get?, accepts_nil]

theorem accepts_put (s : Schema) {k : String} (x : Json) (hk : k = "title" ∨ k = "description")
    (h : isPlain doc (.object s.members) = true ∨ IgnoresAnnotations other) :
    Accepts doc other (s.put k x).toJson v ↔ Accepts doc other s.toJson v :=
  (accepts_put_iff s.members x hk h).trans (accepts_members s)

theorem accepts_putNew (s : Schema) {k : String} (x : Json) (hk : k = "title" ∨ k = "description")
    (h : isPlain doc (.object s.members) = true ∨ IgnoresAnnotations other) :
    Accepts doc other (s.putNew k x).toJson v ↔ Accepts doc other s.toJson v := by
  rw [putNew, toJson, Members.putNew]
  split
  · exact accepts_members s
  · exact accepts_put s x hk h

/-! ## Schemas of conversions -/

theorem accepts_primitive {t : String} (ht : t ∈ typeNames) :
    Accepts doc other (primitive t).toJson v ↔ v.typeName = t := by
  have hplain : isPlain doc (primitive t).toJson = true := by
    simp [isPlain, primitive, toJson, isModelled, ht]
  rw [Accepts, if_pos hplain]
  simp [primitive, toJson, Members.get?]

theorem typeName_eq_string : v.typeName = "string" ↔ ∃ t, v = .string t := by
  cases v <;> simp [typeName]

theorem typeName_eq_null : v.typeName = "null" ↔ v = .null := by
  cases v <;> simp [typeName]

theorem typeName_eq_array : v.typeName = "array" ↔ ∃ ws, v = .array ws := by
  cases v <;> simp [typeName]

theorem typeName_eq_object : v.typeName = "object" ↔ ∃ ws, v = .object ws := by
  cases v <;> simp [typeName]

theorem strings_inj {ts ts' : List String} (h : strings ts = strings ts') : ts = ts' := by
  have hinj : Function.Injective Json.string := fun _ _ heq => Json.string.inj heq
  exact List.map_injective_iff.mpr hinj (Json.array.inj h)

theorem accepts_identifier (n : String) :
    Accepts doc other (identifier n).toJson v ↔ ∃ t, v = .string t := by
  have hplain : isPlain doc (identifier n).toJson = true := rfl
  rw [Accepts, if_pos hplain]
  simp [identifier, toJson, Members.get?, typeName_eq_string]

theorem accepts_null : Accepts doc other null.toJson v ↔ v = .null := by
  have hplain : isPlain doc null.toJson = true := rfl
  rw [Accepts, if_pos hplain]
  simp [null, toJson, Members.get?, typeName_eq_null]

theorem accepts_typename (n : String) :
    Accepts doc other (typename n).toJson v ↔ v = .string n := by
  have hplain : isPlain doc (typename n).toJson = true := rfl
  rw [Accepts, if_pos hplain]
  simp [typename, toJson, Members.get?]

theorem accepts_enumeration (e : String) (values : List String) :
    Accepts doc other (enumeration e values).toJson v ↔ ∃ t ∈ values, v = .string t := by
  have hplain : isPlain doc (enumeration e values).toJson = true := by
    simp [isPlain, enumeration, toJson, isModelled, typeNames, strings, isText]
  rw [Accepts, if_pos hplain]
  simp only [enumeration, toJson, reduceCtorEq, IsEmpty.forall_iff, implies_true, get?_object,
    Members.get?, ↓reduceIte, Option.some.injEq, string.injEq, forall_eq', String.reduceEq,
    Json.strings, Json.array.injEq, List.mem_map, and_true, true_and]
  constructor
  · rintro ⟨-, t, ht, rfl⟩
    exact ⟨t, ht, rfl⟩
  · rintro ⟨t, ht, rfl⟩
    exact ⟨rfl, t, ht, rfl⟩

theorem accepts_array (s : Schema) :
    Accepts doc other (array s).toJson v ↔
      ∃ ws, v = .array ws ∧ ∀ w ∈ ws, Accepts doc other s.toJson w := by
  have hplain : isPlain doc (array s).toJson = true := rfl
  have hkeywords : (array s).toJson = .object [("type", .string "array"), ("items", s.toJson)] := rfl
  rw [Accepts, if_pos hplain, hkeywords]
  simp only [reduceCtorEq, IsEmpty.forall_iff, implies_true, get?_object, Members.get?, ↓reduceIte,
    Option.some.injEq, string.injEq, forall_eq', String.reduceEq, and_true, true_and]
  constructor
  · rintro ⟨htype, hitems⟩
    obtain ⟨ws, rfl⟩ := typeName_eq_array.mp htype
    exact ⟨ws, rfl, hitems _ ws rfl rfl⟩
  · rintro ⟨ws, rfl, hitems⟩
    refine ⟨rfl, ?_⟩
    rintro _ _ rfl ⟨⟩
    exact hitems

theorem accepts_oneOf (choices : List Schema) :
    Accepts doc other (oneOf choices).toJson v ↔
      ∃! i : Nat, ∃ s, choices[i]? = some s ∧ Accepts doc other s.toJson v := by
  have hplain : isPlain doc (oneOf choices).toJson = true := rfl
  rw [Accepts, if_pos hplain]
  simp [oneOf, toJson, Members.get?]

theorem accepts_reference {n : String} {x : Json} (hx : doc.at? (definitionPointer n) = some x)
    (hdirect : x.isDirect = true) :
    Accepts doc other (reference n).toJson v ↔ Accepts doc other x v := by
  have hplain : isPlain doc (reference n).toJson = true := by
    simp [isPlain, reference, toJson, isModelled, hx, hdirect]
  rw [Accepts, if_pos hplain]
  simp only [toJson, reference, reduceCtorEq, IsEmpty.forall_iff, implies_true, get?_object,
    Members.get?, String.reduceEq, ↓reduceIte, Option.some.injEq, string.injEq, true_and]
  constructor
  · intro h
    exact h _ x rfl hx hdirect
  · rintro h _ y rfl hy -
    rw [hx, Option.some.injEq] at hy
    exact hy ▸ h

theorem isPlain_shape (doc : Json) (properties : Members Json) (required : List String) :
    isPlain doc (shape properties required).toJson = true := by
  simp [isPlain, shape, toJson, isModelled, typeNames, strings, isText]

theorem accepts_shape (properties : Members Json) (required : List String) :
    Accepts doc other (shape properties required).toJson v ↔
      ∃ ws, v = .object ws ∧ (∀ k ∈ required, k ∈ Members.names ws) ∧
        ∀ k x w, properties.get? k = some x → Members.get? ws k = some w →
          Accepts doc other x w := by
  rw [Accepts, if_pos (isPlain_shape doc properties required)]
  simp only [toJson, shape, reduceCtorEq, IsEmpty.forall_iff, implies_true, get?_object, Members.get?,
    ↓reduceIte, Option.some.injEq, string.injEq, forall_eq', String.reduceEq, and_true, true_and]
  constructor
  · rintro ⟨htype, hproperties, hrequired⟩
    obtain ⟨ws, rfl⟩ := typeName_eq_object.mp htype
    exact ⟨ws, rfl, hrequired _ ws rfl rfl, fun k x w => hproperties _ x k w rfl⟩
  · rintro ⟨ws, rfl, hrequired, hproperties⟩
    refine ⟨rfl, ?_, ?_⟩
    · rintro _ x k w rfl
      exact hproperties k x w
    · rintro ks _ hks ⟨⟩ k hk
      exact hrequired k (strings_inj hks ▸ hk)

end Schema

end GraphShape
