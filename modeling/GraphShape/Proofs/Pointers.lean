import GraphShape.Conversion.Document
import GraphShape.Json.Pointer
import GraphShape.Sdl.Token
import Mathlib.Data.List.Basic

/-!
# Pointers to definitions

A reference holds a pointer behind a hash. The key fact is that a GraphQL name has no character
that a pointer writes in another way, so the pointer of a name leads to the definition of the name.
-/

namespace GraphShape

/-- A letter or underscore, and then letters, digits and underscores. -/
def isGraphQLName (name : String) : Bool :=
  match name.toList with
  | [] => false
  | first :: rest => Sdl.Token.isNameStart first && rest.all Sdl.Token.isNameChar

/-! ## Plain characters -/

/-- A character of one byte that a pointer in a fragment writes as it is. -/
def IsPlain (ch : Char) : Prop := ch.toNat < 128 ∧ ch ≠ '%' ∧ ch ≠ '~'

theorem isNameChar_of_start {ch : Char} (h : Sdl.Token.isNameStart ch = true) :
    Sdl.Token.isNameChar ch = true := by
  rw [Sdl.Token.isNameChar, h, Bool.true_or]

theorem nameChar_range {ch : Char} (h : Sdl.Token.isNameChar ch = true) :
    ch.toNat = 95 ∨ (97 ≤ ch.toNat ∧ ch.toNat ≤ 122) ∨ (65 ≤ ch.toNat ∧ ch.toNat ≤ 90) ∨
      (48 ≤ ch.toNat ∧ ch.toNat ≤ 57) := by
  have hle : ∀ a b : Char, a ≤ b ↔ a.toNat ≤ b.toNat := fun a b => by
    rw [Char.le_def]; exact UInt32.le_iff_toNat_le
  simp only [Sdl.Token.isNameChar, Sdl.Token.isNameStart, Text.isDecimalDigit, Bool.or_eq_true,
    Bool.and_eq_true, decide_eq_true_eq, hle] at h
  rcases h with ((rfl | h) | h) | h
  · exact Or.inl rfl
  · exact Or.inr (Or.inl h)
  · exact Or.inr (Or.inr (Or.inl h))
  · exact Or.inr (Or.inr (Or.inr h))

theorem nameChar_plain {ch : Char} (h : Sdl.Token.isNameChar ch = true) : IsPlain ch ∧ ch ≠ '/' := by
  have hrange := nameChar_range h
  refine ⟨⟨by omega, ?_, ?_⟩, ?_⟩
  all_goals
    rintro rfl
    simp at hrange

theorem name_plain {name : String} (h : isGraphQLName name = true) :
    ∀ ch ∈ name.toList, IsPlain ch ∧ ch ≠ '/' := by
  unfold isGraphQLName at h
  split at h
  · cases h
  · rename_i first rest hname
    rw [Bool.and_eq_true, List.all_eq_true] at h
    intro ch hch
    rw [hname, List.mem_cons] at hch
    rcases hch with rfl | hch
    · exact nameChar_plain (isNameChar_of_start h.1)
    · exact nameChar_plain (h.2 ch hch)

/-! ## Bytes -/

theorem toList_loop (bytes : ByteArray) (i : Nat) (read : List UInt8) :
    ByteArray.toList.loop bytes i read = read.reverse ++ bytes.data.toList.drop i := by
  unfold ByteArray.toList.loop
  split
  · rename_i hi
    rw [toList_loop bytes (i + 1)]
    have hlt : i < bytes.data.toList.length := by simpa using hi
    have hget : bytes.get! i = bytes.data.toList[i] := by
      show bytes.data[i]! = _
      rw [getElem!_pos bytes.data i hi, Array.getElem_toList]
    rw [List.reverse_cons, List.append_assoc, List.singleton_append, hget,
      ← List.drop_eq_getElem_cons hlt]
  · rename_i hi
    have hle : bytes.data.toList.length ≤ i := by
      rw [Array.length_toList]
      exact Nat.le_of_not_lt hi
    rw [List.drop_eq_nil_of_le hle, List.append_nil]
termination_by bytes.size - i

theorem toList_eq (bytes : ByteArray) : bytes.toList = bytes.data.toList :=
  toList_loop bytes 0 []

theorem encode_plain {ch : Char} (h : IsPlain ch) :
    ∃ b : UInt8, String.utf8EncodeChar ch = [b] ∧ b ≠ 37 := by
  obtain ⟨hascii, hpercent, -⟩ := h
  have hsize : ch.utf8Size = 1 := by
    rw [Char.utf8Size_eq_one_iff, UInt32.le_iff_toNat_le]
    exact Nat.le_of_lt_succ hascii
  refine ⟨_, String.utf8EncodeChar_eq_singleton hsize, ?_⟩
  intro hb
  have hnat : ch.toNat % 256 = 37 := by
    rw [← UInt8.toNat_inj, UInt32.toNat_toUInt8] at hb
    exact hb
  apply hpercent
  rw [← Char.toNat_inj]
  show ch.toNat = 37
  omega

theorem percent_not_mem_bytes {text : List Char} (h : ∀ ch ∈ text, IsPlain ch) :
    (37 : UInt8) ∉ (String.ofList text).toUTF8.toList := by
  rw [String.toUTF8_eq_toByteArray, String.toByteArray_ofList, toList_eq]
  induction text with
  | nil => simp
  | cons ch rest ih =>
    obtain ⟨b, hb, hpercent⟩ := encode_plain (h ch List.mem_cons_self)
    have hrest := ih (fun x hx => h x (List.mem_cons_of_mem _ hx))
    rw [List.utf8Encode_cons, ByteArray.toList_data_append, List.mem_append, not_or]
    refine ⟨?_, hrest⟩
    rw [List.utf8Encode_singleton, hb, List.toList_data_toByteArray, List.mem_singleton]
    exact Ne.symm hpercent

theorem fragmentBytes?_eq {bytes : List UInt8} (h : (37 : UInt8) ∉ bytes) :
    Json.fragmentBytes? bytes = some bytes := by
  induction bytes with
  | nil => rfl
  | cons b rest ih =>
    rw [List.mem_cons, not_or] at h
    rw [Json.fragmentBytes?.eq_def]
    simp only [if_neg (Ne.symm h.1), ih h.2, Option.map_some]

theorem fragmentText?_eq {text : List Char} (h : ∀ ch ∈ text, IsPlain ch) :
    Json.fragmentText? (String.ofList text) = some (String.ofList text) := by
  rw [Json.fragmentText?, fragmentBytes?_eq (percent_not_mem_bytes h), toList_eq]
  show String.fromUTF8? (String.ofList text).toByteArray = _
  rw [String.fromUTF8?, dif_pos (String.isValidUTF8 _)]
  rfl

/-! ## Definitions -/

theorem unescapeToken_eq {text : List Char} (h : ∀ ch ∈ text, IsPlain ch) :
    Json.unescapeToken text = text := by
  induction text with
  | nil => rfl
  | cons ch rest ih =>
    have hch : ch ≠ '~' := (h ch List.mem_cons_self).2.2
    have hrest := ih (fun x hx => h x (List.mem_cons_of_mem _ hx))
    unfold Json.unescapeToken
    split
    · rename_i heq
      exact absurd (List.cons.inj heq).1 hch
    · rename_i heq
      exact absurd (List.cons.inj heq).1 hch
    · rename_i heq
      obtain ⟨rfl, rfl⟩ := List.cons.inj heq
      rw [hrest]
    · rename_i heq
      simp at heq

/-- The reference to a name leads to the definition of the name. -/
theorem at?_definitionPointer (doc : Json) {name : String} (h : isGraphQLName name = true) :
    doc.at? (definitionPointer name) = doc.resolve [definitionsKey, name] := by
  have hname := name_plain h
  have hdefs : ∀ ch ∈ definitionsKey.toList, IsPlain ch ∧ ch ≠ '/' := by
    rw [show definitionsKey.toList = ['$', 'd', 'e', 'f', 's'] from rfl]
    simp [IsPlain]
  have hpointer : (definitionPointer name).toList =
      '#' :: '/' :: (definitionsKey.toList ++ '/' :: name.toList) := by
    rw [definitionPointer, String.toList_append]
    rfl
  have hfragment : ∀ ch ∈ '/' :: (definitionsKey.toList ++ '/' :: name.toList), IsPlain ch := by
    intro ch hch
    simp only [List.mem_cons, List.mem_append] at hch
    rcases hch with rfl | hch | rfl | hch
    · simp [IsPlain]
    · exact (hdefs ch hch).1
    · simp [IsPlain]
    · exact (hname ch hch).1
  have htokens : Json.pointerTokens? ('/' :: (definitionsKey.toList ++ '/' :: name.toList)) =
      some [definitionsKey, name] := by
    rw [Json.pointerTokens?, List.splitOn_append_cons_self_of_not_mem (fun hm => (hdefs _ hm).2 rfl),
      List.splitOn_eq_singleton (fun hm => (hname _ hm).2 rfl), List.map_cons, List.map_singleton,
      unescapeToken_eq (fun ch hch => (hdefs ch hch).1),
      unescapeToken_eq (fun ch hch => (hname ch hch).1), String.ofList_toList, String.ofList_toList]
  unfold Json.at?
  rw [hpointer]
  simp only [fragmentText?_eq hfragment, String.toList_ofList, htokens, Option.bind_eq_bind,
    Option.bind_some]

end GraphShape
