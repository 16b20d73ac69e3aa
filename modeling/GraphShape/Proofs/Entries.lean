import GraphShape.Proofs.Tokens
import GraphShape.TypeMap.Basic
import Mathlib.Data.List.Induction

/-!
# Entries of objects

A text may write a key more than once. The key fact is that the reader puts each entry under its
key as it comes, so an object is what its entries make one after the other: a key stands where it
was first written and has the value that was written last.
-/

namespace GraphShape

/-! ## Pairs put one after the other -/

namespace Members

variable {α : Type}

/-- The value of the last pair with the name. -/
def IsLast (pairs : List (String × α)) (name : String) (a : α) : Prop :=
  ∃ before after, pairs = before ++ (name, a) :: after ∧ name ∉ names after

theorem names_foldl_put (pairs : List (String × α)) (ms : Members α) :
    names (pairs.foldl (fun ms p => ms.put p.1 p.2) ms) = (names pairs).foldl addNew (names ms) := by
  induction pairs generalizing ms with
  | nil => rfl
  | cons p pairs ih =>
    have hput : names (ms.put p.1 p.2) = addNew (names ms) p.1 := by
      simp only [names_put, addNew, List.contains_eq_mem, decide_eq_true_eq]
    rw [List.foldl_cons, ih, hput]
    rfl

theorem names_ofList (pairs : List (String × α)) :
    names (ofList pairs) = dropRepeats (names pairs) :=
  names_foldl_put pairs []

theorem ofList_concat (pairs : List (String × α)) (name : String) (a : α) :
    ofList (pairs ++ [(name, a)]) = (ofList pairs).put name a := by
  rw [ofList, List.foldl_append]
  rfl

theorem isLast_concat_self (pairs : List (String × α)) (name : String) (a b : α) :
    IsLast (pairs ++ [(name, a)]) name b ↔ a = b := by
  constructor
  · rintro ⟨before, after, hsplit, hafter⟩
    rcases List.eq_nil_or_concat after with rfl | ⟨after, p, rfl⟩
    · have hlast := List.append_inj_right' hsplit rfl
      simp only [List.cons.injEq, Prod.mk.injEq, true_and, and_true] at hlast
      exact hlast
    · -- The last of the pairs has the name, so nothing stands behind the last with it.
      rw [List.concat_eq_append, ← List.cons_append, ← List.append_assoc] at hsplit
      have hlast := List.append_inj_right' hsplit rfl
      rw [List.cons.injEq] at hlast
      simp [names, ← hlast.1] at hafter
  · rintro rfl
    exact ⟨pairs, [], rfl, by simp⟩

theorem isLast_concat_of_ne (pairs : List (String × α)) {name other : String} (a b : α)
    (h : other ≠ name) : IsLast (pairs ++ [(other, a)]) name b ↔ IsLast pairs name b := by
  constructor
  · rintro ⟨before, after, hsplit, hafter⟩
    rcases List.eq_nil_or_concat after with rfl | ⟨after, p, rfl⟩
    · have hlast := List.append_inj_right' hsplit rfl
      simp only [List.cons.injEq, Prod.mk.injEq, and_true] at hlast
      exact absurd hlast.1 h
    · rw [List.concat_eq_append, ← List.cons_append, ← List.append_assoc] at hsplit
      rw [List.concat_eq_append, names_append, List.mem_append, not_or] at hafter
      exact ⟨before, after, List.append_inj_left' hsplit rfl, hafter.1⟩
  · rintro ⟨before, after, rfl, hafter⟩
    refine ⟨before, after ++ [(other, a)], by simp, ?_⟩
    rw [names_append, List.mem_append, not_or]
    exact ⟨hafter, by simpa using Ne.symm h⟩

/-- What is found under a name is the value of its last pair. -/
theorem get?_ofList (pairs : List (String × α)) (name : String) (a : α) :
    (ofList pairs).get? name = some a ↔ IsLast pairs name a := by
  induction pairs using List.reverseRecOn with
  | nil => simp [ofList, get?, IsLast]
  | append_singleton pairs p ih =>
    obtain ⟨other, b⟩ := p
    rw [ofList_concat]
    by_cases h : other = name
    · subst h
      rw [get?_put_self, isLast_concat_self, Option.some.injEq]
    · rw [get?_put_of_ne _ _ (Ne.symm h), isLast_concat_of_ne _ _ _ h, ih]

end Members

namespace Json

open Reader

/-! ## Entries in a text -/

/-- Reads the entries of an object and its closing brace, each key as often as it is written. -/
def readEntries : Nat → Nat → Bool → Reader (List (String × Json))
  | 0, _, _ => failNext .endInObject
  | n + 1, depth, first => do
    if ← hasMember first then do
      let key ← readQuoted
      readColon
      let value ← readValue n depth
      let others ← readEntries n depth false
      pure ((key, value) :: others)
    else do
      skip
      pure []

/-- The entries of the object that a text is, in the order in which they are written. -/
def entries (text : String) : Except ReadError (List (String × Json)) :=
  let chars := text.toList
  let whole : Reader (List (String × Json)) := do
    match ← peekToken with
    | some '\x7b' => do
      let depth ← enter nestingLimit
      skip
      let found ← readEntries (steps chars.length - 1) depth true
      readEnd
      pure found
    | _ => failNext .expectedValue
  (whole (Cursor.start chars)).map Prod.fst

theorem readMembers_eq (n depth : Nat) (first : Bool) (seen : Members Json) :
    readMembers n depth first seen = (do
      let found ← readEntries n depth first
      pure (.object (found.foldl (fun ms p => Members.put ms p.1 p.2) seen))) := by
  induction n generalizing first seen with
  | zero => rfl
  | succ n ih =>
    rw [readMembers, readEntries, bind_assoc]
    refine bind_congr fun more => ?_
    cases more with
    | false => simp
    | true => simp [ih]

/-! ## Objects and their entries -/

theorem ok_of_bind {α β : Type} {r : Reader α} {f : α → Reader β} {c c' : Cursor} {b : β}
    (h : (r >>= f) c = .ok (b, c')) : ∃ a c₁, r c = .ok (a, c₁) ∧ f a c₁ = .ok (b, c') := by
  cases hr : r c with
  | error e =>
    have herror : (r >>= f) c = .error e := congrArg (fun x => x.bind fun p => f p.1 p.2) hr
    rw [herror] at h
    cases h
  | ok p =>
    have hok : (r >>= f) c = f p.1 p.2 := congrArg (fun x => x.bind fun p => f p.1 p.2) hr
    exact ⟨p.1, p.2, rfl, by rw [← h, hok]⟩

/-- The cursor past the blanks. -/
def Cursor.settled (c : Cursor) : Cursor := skipBlanks c.rest.length c

theorem peekToken_bind {β : Type} (f : Option Char → Reader β) (c : Cursor) :
    (peekToken >>= f) c = f c.settled.rest.head? c.settled := rfl

theorem skipBlanks_of_not_blank {c : Cursor} (n : Nat)
    (h : ∀ ch ∈ c.rest.head?, isBlank ch = false) : skipBlanks n c = c := by
  cases n with
  | zero => rfl
  | succ n =>
    rw [skipBlanks]
    split
    · next ch rest hrest =>
      rw [if_neg]
      rw [hrest] at h
      simp [h ch rfl]
    · rfl

theorem Cursor.settled_settled (c : Cursor) : c.settled.settled = c.settled := by
  refine skipBlanks_of_not_blank _ fun ch hch => ?_
  rw [settled, rest_skipBlanks _ c (Nat.le_refl _)] at hch
  have hnot := List.head?_dropWhile_not isBlank c.rest
  rw [Option.mem_def.mp hch] at hnot
  simpa using hnot

/-- The reader fails or reads something that is no object. -/
def NoObject (r : Reader Json) : Prop := ∀ c ms c', r c ≠ .ok (.object ms, c')

namespace NoObject

variable {α : Type}

theorem fail (fault : Fault) : NoObject (failNext fault) := fun _ _ _ h => by cases h

theorem pure {j : Json} (h : j.members? = none) : NoObject (Pure.pure j) := by
  rintro c ms c' ⟨⟩
  cases h

theorem bind {r : Reader α} {f : α → Reader Json} (h : ∀ a, NoObject (f a)) :
    NoObject (r >>= f) := by
  intro c ms c' hr
  obtain ⟨a, c₁, -, hf⟩ := ok_of_bind hr
  exact h a c₁ ms c' hf

theorem items (n depth : Nat) (first : Bool) (seen : List Json) :
    NoObject (readItems n depth first seen) := by
  induction n generalizing first seen with
  | zero => exact fail _
  | succ n ih =>
    rw [readItems]
    refine bind fun more => ?_
    cases more with
    | true => exact bind fun item => ih false (item :: seen)
    | false => exact bind fun _ => pure rfl

end NoObject

theorem head_of_readValue_object {n depth : Nat} {c c' : Cursor} {ms : Members Json}
    (h : readValue (n + 1) depth c = .ok (.object ms, c')) :
    c.settled.rest.head? = some '\x7b' := by
  rw [readValue, peekToken_bind] at h
  generalize c.settled.rest.head? = head at h
  revert h
  split <;> intro h
  · exact absurd h (NoObject.fail _ _ _ _)
  · exact absurd h (NoObject.bind (fun _ => .bind fun _ => .pure (by rfl)) _ _ _)
  · exact absurd h (NoObject.bind (fun _ => .bind fun _ => .pure (by rfl)) _ _ _)
  · exact absurd h (NoObject.bind (fun _ => .bind fun _ => .pure (by rfl)) _ _ _)
  · exact absurd h (NoObject.bind (fun _ => .bind fun _ => .pure (by rfl)) _ _ _)
  · exact absurd h (NoObject.bind (fun _ => .pure (by rfl)) _ _ _)
  · exact absurd h (NoObject.bind (fun _ => .bind fun _ => .items _ _ _ _) _ _ _)
  · rfl
  · split at h
    · exact absurd h (NoObject.bind (fun _ => .pure (by rfl)) _ _ _)
    · exact absurd h (NoObject.fail _ _ _ _)

theorem readValue_eq_readEntries {c : Cursor} (n : Nat)
    (h : c.settled.rest.head? = some '\x7b') :
    readValue (n + 1) nestingLimit c =
      (readEntries n (nestingLimit - 1) true >>= fun found =>
        pure (.object (Members.ofList found))) c.settled.advance := by
  rw [readValue, peekToken_bind, h]
  change readMembers n (nestingLimit - 1) true [] c.settled.advance = _
  rw [readMembers_eq]
  rfl

section Texts

variable {text : String}

/-- What follows the opening brace of a text that is one object. -/
def readClosing (n : Nat) : Reader (List (String × Json)) := do
  let found ← readEntries n (nestingLimit - 1) true
  readEnd
  pure found

theorem entries_of_brace (h : (Cursor.start text.toList).settled.rest.head? = some '\x7b') :
    entries text = ((readClosing (steps text.toList.length - 1))
      (Cursor.start text.toList).settled.advance).map Prod.fst := by
  rw [entries, peekToken_bind, h]
  rfl

theorem whole_of_brace {c : Cursor} (n : Nat) (h : c.settled.rest.head? = some '\x7b') :
    (do let j ← readValue (n + 1) nestingLimit
        readEnd
        pure j : Reader Json) c =
      (readClosing n c.settled.advance).map
        (fun p => (.object (Members.ofList p.1), p.2)) := by
  have hbind (f : Json → Reader Json) : (readValue (n + 1) nestingLimit >>= f) c =
      (readEntries n (nestingLimit - 1) true >>= fun found =>
        f (.object (Members.ofList found))) c.settled.advance := by
    refine (congrArg (fun x => x.bind fun p => f p.1 p.2) (readValue_eq_readEntries n h)).trans ?_
    change ((readEntries n (nestingLimit - 1) true >>= fun found =>
      pure (.object (Members.ofList found))) >>= f) c.settled.advance = _
    rw [bind_assoc]
    rfl
  have hclosing : (readEntries n (nestingLimit - 1) true >>= fun found =>
      readEnd >>= fun _ => pure (.object (Members.ofList found))) =
      (fun found => Json.object (Members.ofList found)) <$> readClosing n := by
    simp [readClosing]
  rw [hbind, hclosing]
  rfl

theorem parse_of_brace (h : (Cursor.start text.toList).settled.rest.head? = some '\x7b') :
    parse text = (entries text).map (fun found => .object (Members.ofList found)) := by
  rw [entries_of_brace h, parse]
  refine (congrArg (Except.map Prod.fst)
    (whole_of_brace (steps text.toList.length - 1) h)).trans ?_
  cases readClosing (steps text.toList.length - 1) (Cursor.start text.toList).settled.advance <;> rfl

theorem parseObject_of_brace
    (h : (Cursor.start text.toList).settled.rest.head? = some '\x7b') :
    parseObject text = (entries text).map Members.ofList := by
  -- The brace that was looked for is read again, from where it stands.
  have hagain : (Cursor.start text.toList).settled.settled.rest.head? = some '\x7b' := by
    rw [Cursor.settled_settled, h]
  rw [entries_of_brace h, parseObject, peekToken_bind, h]
  refine (congrArg (Except.map _)
    (whole_of_brace (steps text.toList.length - 1) hagain)).trans ?_
  rw [Cursor.settled_settled]
  cases readClosing (steps text.toList.length - 1) (Cursor.start text.toList).settled.advance <;> rfl

theorem ok_of_map {ε α β : Type} {x : Except ε α} {f : α → β} {b : β} (h : x.map f = .ok b) :
    ∃ a, x = .ok a ∧ f a = b := by
  cases x with
  | error e => cases h
  | ok a => exact ⟨a, rfl, Except.ok.inj h⟩

theorem brace_of_entries {found : List (String × Json)} (h : entries text = .ok found) :
    (Cursor.start text.toList).settled.rest.head? = some '\x7b' := by
  obtain ⟨p, hwhole, -⟩ := ok_of_map h
  rw [peekToken_bind] at hwhole
  generalize (Cursor.start text.toList).settled.rest.head? = head at hwhole
  revert hwhole
  split <;> intro hwhole
  · rfl
  · cases hwhole

theorem brace_of_parse {ms : Members Json} (h : parse text = .ok (.object ms)) :
    (Cursor.start text.toList).settled.rest.head? = some '\x7b' := by
  obtain ⟨⟨j, c⟩, hwhole, rfl⟩ := ok_of_map h
  obtain ⟨j', c₁, hvalue, hwhole⟩ := ok_of_bind hwhole
  obtain ⟨_, c₂, -, hwhole⟩ := ok_of_bind hwhole
  cases hwhole
  exact head_of_readValue_object hvalue

theorem brace_of_parseObject {ms : Members Json} (h : parseObject text = .ok ms) :
    (Cursor.start text.toList).settled.rest.head? = some '\x7b' := by
  obtain ⟨p, hwhole, -⟩ := ok_of_map h
  rw [peekToken_bind] at hwhole
  generalize (Cursor.start text.toList).settled.rest.head? = head at hwhole
  revert hwhole
  split <;> intro hwhole
  · cases hwhole
  · rfl
  · obtain ⟨_, c, -, hwhole⟩ := ok_of_bind hwhole
    cases hwhole

theorem parseObject_eq_ok_iff (text : String) (ms : Members Json) :
    parseObject text = .ok ms ↔ ∃ found, entries text = .ok found ∧ ms = Members.ofList found := by
  constructor
  · intro h
    rw [parseObject_of_brace (brace_of_parseObject h)] at h
    obtain ⟨found, hfound, rfl⟩ := ok_of_map h
    exact ⟨found, hfound, rfl⟩
  · rintro ⟨found, hfound, rfl⟩
    rw [parseObject_of_brace (brace_of_entries hfound), hfound]
    rfl

/-- A text is an object with the members that its entries make. -/
theorem parse_eq_object_iff (text : String) (ms : Members Json) :
    parse text = .ok (.object ms) ↔ parseObject text = .ok ms := by
  constructor
  · intro h
    have hbrace := brace_of_parse h
    rw [parse_of_brace hbrace] at h
    obtain ⟨found, hfound, hms⟩ := ok_of_map h
    rw [parseObject_of_brace hbrace, hfound]
    exact congrArg Except.ok (Json.object.inj hms)
  · intro h
    have hbrace := brace_of_parseObject h
    rw [parseObject_of_brace hbrace] at h
    obtain ⟨found, hfound, rfl⟩ := ok_of_map h
    rw [parse_of_brace hbrace, hfound]
    rfl

end Texts

end Json

end GraphShape
