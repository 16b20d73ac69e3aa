import GraphShape.Json.Pointer
import GraphShape.Proofs.SettingReading
import GraphShape.Proofs.Spelling
import GraphShape.Settings.JsonReading

/-!
# Settings from a spelled value

What a value makes of the defaults can be said without its text: each member assigns its value to
the setting of its name, and any other member does nothing. The key fact is that a reader of members
that meets only values of the right kinds does just that, whichever way the value is spelled.
-/

namespace GraphShape

open Json

/-! ## What a value assigns -/

/-- The value for a setting of a kind, if the JSON value is one. -/
def Kind.ofJson? : (k : Kind) → Json → Option k.Value
  | .flag, .bool b => some b
  | .text, .string s => some s
  | .optionalText, .null => some none
  | .optionalText, .string s => some (some s)
  | .optionalPath, .null => some none
  | .optionalPath, .string s => some (some s)
  | .level, .string s => Log.Level.ofText? s
  | .rotation, .string s => Rotation.ofName? s
  | _, _ => none

def Setting.take (s : Setting) (j : Json) (c : Config) : Config :=
  (s.kind.ofJson? j).elim c fun v => s.assign v c

/-- Gives a member to the taker of its name, if there is one. -/
def takeMember (takers : Members (Json → Config → Config)) (c : Config) (m : String × Json) :
    Config :=
  (Members.get? takers m.1).elim c fun take => take m.2 c

def SettingGroup.take (g : SettingGroup) (j : Json) (c : Config) : Config :=
  (j.members?.getD []).foldl (takeMember (g.settings.map fun s => (s.name, s.take))) c

def Entry.take : Entry → Json → Config → Config
  | .setting s => s.take
  | .group _ _ g => g.take

/-- The configuration that a value makes of the defaults. -/
def Config.ofJson (v : Json) : Config :=
  (v.members?.getD []).foldl (takeMember (Config.entries.map fun e => (e.name, e.take)))
    Config.standard

/-! ## Values of the right kinds -/

def Setting.Fits (s : Setting) (j : Json) : Prop := ∃ v, s.kind.ofJson? j = some v

/-- An object without repeated keys whose members fit what is there for their names. -/
def FitsMembers {α : Type} (parts : List α) (name : α → String) (fits : α → Json → Prop)
    (j : Json) : Prop :=
  ∃ ms, j = .object ms ∧ (Members.names ms).Nodup ∧ ∀ m ∈ ms, ∀ p ∈ parts, name p = m.1 → fits p m.2

def Entry.Fits : Entry → Json → Prop
  | .setting s => s.Fits
  | .group _ _ g => FitsMembers g.settings Setting.name Setting.Fits

def Config.Fits : Json → Prop := FitsMembers Config.entries Entry.name Entry.Fits

/-! ## Reading values -/

namespace Json.Reads

open Reader

variable {text blanks rest : List Char} {j : Json} {s expected : String}

theorem spelledText (h : SpellsString text s) (hblanks : Blanks blanks) :
    Reads (readText expected) (blanks ++ (text ++ rest)) s rest := by
  have hread : Reads readQuoted (text ++ rest) s rest := spelledString h
  obtain ⟨inside, -, rfl⟩ := h
  exact token hblanks (by decide) hread

theorem spelledOptional (h : SpellsString text s) (hblanks : Blanks blanks) :
    Reads (readOptional expected) (blanks ++ (text ++ rest)) (some s) rest := by
  have hread : Reads (readText expected) ([] ++ (text ++ rest)) s rest := spelledText h .nil
  obtain ⟨inside, -, rfl⟩ := h
  exact token hblanks (by decide) (hread.bind (pure _ rest))

theorem nullOptional (hblanks : Blanks blanks) :
    Reads (readOptional expected) (blanks ++ (['n', 'u', 'l', 'l'] ++ rest)) none rest :=
  token hblanks (by decide) (skip ((letters ['u', 'l', 'l'] rest).bind (pure _ rest)))

theorem spelledRotation {r : Rotation} (h : SpellsString text s) (hr : Rotation.ofName? s = some r)
    (hblanks : Blanks blanks) : Reads readRotation (blanks ++ (text ++ rest)) r rest := by
  have hname : Reads readRotationName ([] ++ (text ++ rest)) r rest := by
    refine (spelledText h .nil).bind ?_
    simp only [hr]
    exact pure r rest
  obtain ⟨inside, -, rfl⟩ := h
  exact token hblanks (by decide) hname

theorem spelledKind {k : Kind} {v : k.Value} (hv : k.ofJson? j = some v) (h : Spells text j)
    (hblanks : Blanks blanks) : Reads k.read (blanks ++ (text ++ rest)) (.ok v) rest := by
  cases k with
  | flag =>
    cases h with
    | yes =>
      cases hv
      exact bind (token hblanks (by decide) (skip ((letters ['r', 'u', 'e'] rest).bind
        (pure true rest)))) (pure _ rest)
    | no =>
      cases hv
      exact bind (token hblanks (by decide) (skip ((letters ['a', 'l', 's', 'e'] rest).bind
        (pure false rest)))) (pure _ rest)
    | _ => cases hv
  | text =>
    cases h with
    | string h =>
      cases hv
      exact (spelledText h hblanks).bind (pure _ rest)
    | _ => cases hv
  | optionalText | optionalPath =>
    cases h with
    | null =>
      cases hv
      exact (nullOptional hblanks).bind (pure _ rest)
    | string h =>
      cases hv
      exact (spelledOptional h hblanks).bind (pure _ rest)
    | _ => cases hv
  | level =>
    cases h with
    | string h =>
      refine (spelledText h hblanks).bind ?_
      rw [show Log.Level.ofText? _ = some v from hv]
      exact pure _ rest
    | _ => cases hv
  | rotation =>
    cases h with
    | string h => exact (spelledRotation h hv hblanks).bind (pure _ rest)
    | _ => cases hv

end Json.Reads

/-! ## Reading members -/

/-- The reader gives what the taker does with the value, whichever way that is spelled. -/
def Takes (read : Config → Reader (Late Config)) (j : Json) (take : Json → Config → Config) :
    Prop :=
  ∀ {text blanks rest : List Char} (c : Config), Spells text j → Blanks blanks →
    Reads (read c) (blanks ++ (text ++ rest)) (.ok (take j c)) rest

/-- The members have takers that agree with their readers, or neither. -/
def TakesAll (readers : SettingReaders) (takers : Members (Json → Config → Config))
    (ms : Members Json) : Prop :=
  ∀ m ∈ ms, (Members.get? readers m.1 = none ∧ Members.get? takers m.1 = none) ∨
    ∃ read take, Members.get? readers m.1 = some read ∧ Members.get? takers m.1 = some take ∧
      Takes read m.2 take

namespace Json.Reads

open Reader

variable {readers : SettingReaders} {takers : Members (Json → Config → Config)} {c c' : Config}
  {seen : List String} {first : Bool} {n : Nat}

theorem takenMember {k : String} {x : Json} {text key before after next start last : List Char}
    (hk : SpellsString key k) (hbefore : Blanks before) (hafter : Blanks after) (hx : Spells text x)
    (hn : text.length ≤ n) (hnext : EndsNumber next) (hseen : k ∉ seen)
    (htakes : TakesAll readers takers [(k, x)])
    (hmember : Reads (hasMember first) start true
      (key ++ (before ++ ':' :: (after ++ (text ++ next)))))
    (hmore : ∀ seen', (∀ l ∈ seen', l = k ∨ l ∈ seen) →
      Reads (readers.readMembers n false seen' (takeMember takers c (k, x))) next (.ok c') last) :
    Reads (readers.readMembers (n + 1) first seen c) start (.ok c') last := by
  refine bind hmember (bind (spelledString hk) ?_)
  rcases htakes (k, x) List.mem_cons_self with ⟨hread, htake⟩ | ⟨read, take, hread, htake, hagree⟩
  · have hskip := (skips (steps n)).value hx (by unfold steps; omega) hafter hnext
    have hmore := hmore seen fun l hl => .inr hl
    rw [takeMember, htake] at hmore
    simp only [hread]
    exact bind (spelledColon _ hbefore) (bind hskip hmore)
  · have hvalue : Reads (read c) (after ++ (text ++ next)) (.ok (take x c)) next :=
      hagree c hx hafter
    have hmore := hmore (k :: seen) fun l hl => List.mem_cons.mp hl
    rw [takeMember, htake] at hmore
    simp only [hread, List.contains_eq_mem, hseen, decide_false, Bool.false_eq_true, if_false]
    exact bind (spelledColon _ hbefore) (bind hvalue hmore)

/-- The members come first, or there is a comma in front of them. -/
def Ahead (first : Bool) (start members : List Char) : Prop :=
  (first = true ∧ start = members) ∨
    (first = false ∧ ∃ blanks, Blanks blanks ∧ start = blanks ++ ',' :: members)

theorem spelledKey {start blanks key next : List Char} {k : String}
    (h : Ahead first start (blanks ++ (key ++ next))) (hblanks : Blanks blanks)
    (hk : SpellsString key k) : Reads (hasMember first) start true (key ++ next) := by
  obtain ⟨inside, -, rfl⟩ := hk
  rcases h with ⟨rfl, rfl⟩ | ⟨rfl, blanks', hblanks', rfl⟩
  · exact token hblanks (by decide) (pure true _)
  · exact token hblanks' (by decide) (skip (token hblanks (by decide) (pure true _)))

theorem noKey {blanks rest : List Char} (h : Blanks blanks) :
    Reads (readers.readMembers (n + 1) first seen c) (blanks ++ '\x7d' :: rest) (.ok c)
      ('\x7d' :: rest) :=
  bind (token h (by decide) (pure false _)) (pure _ _)

theorem takenMembers {ms : Members Json} {text rest start : List Char} (h : SpellsMembers text ms)
    (hstart : Ahead first start (text ++ rest)) (hnodup : (Members.names ms).Nodup)
    (hseen : ∀ k ∈ Members.names ms, k ∉ seen) (htakes : TakesAll readers takers ms)
    (hn : text.length ≤ n) :
    Reads (readers.readMembers (n + 1) first seen c) start (.ok (ms.foldl (takeMember takers) c))
      ('\x7d' :: rest) := by
  induction ms generalizing n first seen c text start with
  | nil => cases h
  | cons m ms ih =>
    obtain ⟨k, x⟩ := m
    have hk : k ∉ seen := hseen k List.mem_cons_self
    have htake : TakesAll readers takers [(k, x)] := fun m hm =>
      htakes m (List.mem_singleton.mp hm ▸ List.mem_cons_self)
    cases h with
    | @last _ _ _ _ _ blanks' _ _ h hkey hbefore hafter hx h' =>
      simp only [List.length_append, List.length_cons] at hn
      simp only [List.append_assoc, List.cons_append, List.nil_append] at hstart
      obtain ⟨n, rfl⟩ : ∃ m, n = m + 1 := ⟨n - 1, by omega⟩
      have hends : EndsNumber (blanks' ++ '\x7d' :: rest) := h'.endsNumber rest (by decide)
      exact takenMember hkey hbefore hafter hx (by omega) hends hk htake
        (spelledKey hstart h hkey) fun seen' _ => noKey h'
    | @more _ _ _ _ _ blanks' rest' _ _ _ h hkey hbefore hafter hx h' hms =>
      simp only [List.length_append, List.length_cons] at hn
      simp only [List.append_assoc, List.cons_append] at hstart
      obtain ⟨n, rfl⟩ : ∃ m, n = m + 1 := ⟨n - 1, by omega⟩
      have hends : EndsNumber (blanks' ++ ',' :: (rest' ++ rest)) := h'.endsNumber _ (by decide)
      rw [Members.names_cons, List.nodup_cons] at hnodup
      refine takenMember hkey hbefore hafter hx (by omega) hends hk htake
        (spelledKey hstart h hkey) fun seen' hseen' => ?_
      -- No later key is the one of this member, nor was it seen before.
      refine ih hms (.inr ⟨rfl, blanks', h', rfl⟩) hnodup.2 (fun l hl hmem => ?_)
        (fun m hm => htakes m (List.mem_cons_of_mem _ hm)) (by omega)
      rcases hseen' l hmem with rfl | hold
      · exact hnodup.1 hl
      · exact hseen l (List.mem_cons_of_mem _ hl) hold

theorem blankEnding {blanks : List Char} (h : Blanks blanks) : Reads readEnd blanks () [] := by
  have hdrop : (blanks ++ []).dropWhile isBlank = [].dropWhile isBlank :=
    List.dropWhile_append_of_pos h
  have hpeek := peekToken (blanks ++ [])
  rw [hdrop, List.append_nil] at hpeek
  exact hpeek.bind (pure () [])

theorem closing (rest : List Char) : Reads closeObject ('\x7d' :: rest) () rest :=
  token .nil (by decide) (skip_last '\x7d' rest)

/-- The members are read with as many steps as there are characters left, and one more. -/
def membersFrom (readers : SettingReaders) (c : Config) : Reader (Late Config) :=
  fun cursor => readers.readMembers (cursor.rest.length + 1) true [] c cursor

theorem takenObject {ms : Members Json} {text blanks rest : List Char} {expected : String}
    (h : Spells text (.object ms)) (hblanks : Blanks blanks) (hnodup : (Members.names ms).Nodup)
    (htakes : TakesAll readers takers ms) :
    Reads (readers.read expected c) (blanks ++ (text ++ rest)) (ms.foldl (takeMember takers) c)
      rest := by
  have hclose : Reads (settle closeObject pastObject (.ok (ms.foldl (takeMember takers) c)))
      ('\x7d' :: rest) (ms.foldl (takeMember takers) c) rest := (closing rest).bind (pure _ rest)
  cases h with
  | @emptyObject blanks' h =>
    have hmembers : Reads (membersFrom readers c) (blanks' ++ '\x7d' :: rest) (.ok c)
        ('\x7d' :: rest) := fun cursor hc => noKey h cursor hc
    rw [List.cons_append, List.append_assoc]
    exact token hblanks (by decide) (skip (hmembers.bind hclose))
  | @object text _ h =>
    have hmembers : Reads (membersFrom readers c) (text ++ rest)
        (.ok (ms.foldl (takeMember takers) c)) ('\x7d' :: rest) := by
      intro cursor hc
      have hn : text.length ≤ cursor.rest.length := by
        rw [hc, List.length_append]
        exact Nat.le_add_right _ _
      have hunseen : ∀ k ∈ Members.names ms, k ∉ ([] : List String) := fun _ _ => List.not_mem_nil
      exact takenMembers h (.inl ⟨rfl, rfl⟩) hnodup hunseen htakes hn cursor hc
    exact token hblanks (by decide) (skip (hmembers.bind hclose))

end Json.Reads

/-! ## Settings, groups and the whole -/

theorem Members.get?_map {α β : Type} (parts : List α) (name : α → String) (f : α → β)
    (n : String) : Members.get? (parts.map fun p => (name p, f p)) n =
      (parts.find? fun p => name p = n).map f := by
  induction parts with
  | nil => rfl
  | cons p parts ih =>
    rw [List.map_cons, Members.get?, List.find?_cons, ih]
    by_cases h : name p = n <;> simp [h]

theorem Setting.takes {s : Setting} {j : Json} (h : s.Fits j) : Takes s.read j s.take := by
  intro text blanks rest c hj hblanks
  obtain ⟨v, hv⟩ := h
  rw [Setting.take, hv]
  exact (Reads.spelledKind hv hj hblanks).bind (Reads.pure _ rest)

theorem takesAll_of_fits {α : Type} {parts : List α} {name : α → String} {fits : α → Json → Prop}
    (read : α → Config → Reader (Late Config)) (take : α → Json → Config → Config)
    {ms : Members Json} (hfits : ∀ m ∈ ms, ∀ p ∈ parts, name p = m.1 → fits p m.2)
    (htakes : ∀ p ∈ parts, ∀ j, fits p j → Takes (read p) j (take p)) :
    TakesAll (parts.map fun p => (name p, read p)) (parts.map fun p => (name p, take p)) ms := by
  intro m hm
  rw [Members.get?_map, Members.get?_map]
  cases hfind : parts.find? fun p => name p = m.1 with
  | none => exact .inl ⟨rfl, rfl⟩
  | some p =>
    have hp := List.mem_of_find?_eq_some hfind
    have hname : name p = m.1 := by simpa using List.find?_some hfind
    exact .inr ⟨read p, take p, rfl, rfl, htakes p hp _ (hfits m hm p hp hname)⟩

theorem Entry.takes {e : Entry} {j : Json} (h : e.Fits j) : Takes e.read j e.take := by
  cases e with
  | setting s => exact Setting.takes h
  | group name description g =>
    intro text blanks rest c hj hblanks
    obtain ⟨ms, rfl, hnodup, hfits⟩ := h
    have htakes := takesAll_of_fits Setting.read Setting.take hfits
      fun s _ j hs => Setting.takes hs
    exact (Reads.takenObject hj hblanks hnodup htakes).bind (Reads.pure _ rest)

/-- Whichever way a value is spelled that fits, the same configuration is read. -/
theorem Config.parse_spelled {text : String} {v : Json} (h : SpellsWhole text.toList v)
    (hfits : Config.Fits v) : Config.parse text = .ok (Config.ofJson v) := by
  obtain ⟨before, body, after, htext, hbefore, hbody, hafter⟩ := h
  obtain ⟨ms, rfl, hnodup, hfits⟩ := hfits
  have htakes := takesAll_of_fits Entry.read Entry.take hfits
    fun e _ j he => Entry.takes he
  have hread : Reads (do
      let c ← SettingReaders.read (Config.entries.map fun e => (e.name, e.read)) Config.expected
        Config.standard
      readEnd
      pure c) text.toList (Config.ofJson (.object ms)) [] := by
    rw [htext]
    exact (Reads.takenObject hbody hbefore hnodup htakes).bind
      ((Reads.blankEnding hafter).bind (Reads.pure _ []))
  obtain ⟨c, hc, -⟩ := hread (Cursor.start text.toList) rfl
  exact congrArg (Except.map Prod.fst) hc

/-! ## What the settings are -/

section Taking

variable {β : Type} {f : Config → β} {takers : Members (Json → Config → Config)} {ms : Members Json}
  {name : String}

/-- The taker of a name leaves something alone. -/
def LeavesAlone (f : Config → β) (takers : Members (Json → Config → Config)) (name : String) :
    Prop :=
  ∀ take, Members.get? takers name = some take → ∀ j c, f (take j c) = f c

theorem LeavesAlone.takeMember {m : String × Json} (h : LeavesAlone f takers m.1) (c : Config) :
    f (takeMember takers c m) = f c := by
  rw [GraphShape.takeMember]
  cases htake : Members.get? takers m.1 with
  | none => rfl
  | some take => exact h take htake m.2 c

theorem foldl_leavesAlone (h : ∀ m ∈ ms, LeavesAlone f takers m.1) (c : Config) :
    f (ms.foldl (takeMember takers) c) = f c := by
  induction ms generalizing c with
  | nil => rfl
  | cons m ms ih =>
    rw [List.foldl_cons, ih fun m hm => h m (List.mem_cons_of_mem _ hm)]
    exact (h m List.mem_cons_self).takeMember c

theorem foldl_takeMember {take : Json → Config → Config}
    (htake : Members.get? takers name = some take)
    (h : ∀ other ≠ name, LeavesAlone f takers other) (hnodup : (Members.names ms).Nodup)
    (c : Config) : ∃ c₁, f c₁ = f c ∧ f (ms.foldl (takeMember takers) c) =
      f ((Members.get? ms name).elim c₁ fun j => take j c₁) := by
  induction ms generalizing c with
  | nil => exact ⟨c, rfl, rfl⟩
  | cons m ms ih =>
    obtain ⟨k, x⟩ := m
    rw [Members.names_cons, List.nodup_cons] at hnodup
    rw [List.foldl_cons, Members.get?]
    split
    · rename_i hk
      subst hk
      refine ⟨c, rfl, ?_⟩
      have hrest : ∀ m ∈ ms, LeavesAlone f takers m.1 := fun m hm =>
        h m.1 fun hname => hnodup.1 (hname ▸ Members.mem_names_of_mem hm)
      rw [foldl_leavesAlone hrest, takeMember, htake]
      rfl
    · rename_i hk
      obtain ⟨c₁, hc₁, hvalue⟩ := ih hnodup.2 (takeMember takers c (k, x))
      exact ⟨c₁, hc₁.trans ((h k hk).takeMember c), hvalue⟩

theorem get?_parts {α γ : Type} {parts : List α} {name : α → String} (g : α → γ) {p : α}
    (hp : p ∈ parts) (hnodup : (parts.map name).Nodup) :
    Members.get? (parts.map fun p => (name p, g p)) (name p) = some (g p) := by
  refine Members.get?_of_mem ?_ (List.mem_map.mpr ⟨p, hp, rfl⟩)
  rw [Members.names, List.map_map]
  exact hnodup

theorem leavesAlone_parts {α : Type} {parts : List α} {name : α → String}
    {take : α → Json → Config → Config} {other : String}
    (h : ∀ p ∈ parts, name p = other → ∀ j c, f (take p j c) = f c) :
    LeavesAlone f (parts.map fun p => (name p, take p)) other := by
  intro act hact
  rw [Members.get?_map] at hact
  obtain ⟨p, hfind, rfl⟩ := Option.map_eq_some_iff.mp hact
  exact h p (List.mem_of_find?_eq_some hfind) (by simpa using List.find?_some hfind)

end Taking

section Values

variable {x y : Slot}

theorem Setting.value_take (hx : x ∈ Config.slots) {given : Option Json}
    (hfits : ∀ j, given = some j → x.setting.Fits j) (c : Config) :
    (∀ j, given = some j → x.setting.kind.ofJson? j =
      some (x.setting.value (given.elim c fun j => x.setting.take j c))) ∧
    (given = none →
      x.setting.value (given.elim c fun j => x.setting.take j c) = x.setting.value c) := by
  cases given with
  | none => exact ⟨nofun, fun _ => rfl⟩
  | some j =>
    obtain ⟨v, hv⟩ := hfits j rfl
    refine ⟨?_, nofun⟩
    rintro _ ⟨⟩
    change _ = some (x.setting.value (x.setting.take j c))
    rw [Setting.take, hv]
    exact congrArg some (value_assign x hx v c).symm

theorem Setting.value_take_of_ne (hx : x ∈ Config.slots) (hy : y ∈ Config.slots)
    (h : x.path ≠ y.path) (j : Json) (c : Config) :
    y.setting.value (x.setting.take j c) = y.setting.value c := by
  rw [Setting.take]
  cases x.setting.kind.ofJson? j with
  | none => rfl
  | some v => exact value_assign_of_ne x hx y hy h v c

theorem mem_slots {name description : String} {g : SettingGroup}
    (hg : Entry.group name description g ∈ Config.entries) {s : Setting} (hs : s ∈ g.settings) :
    ∃ i, (⟨[name, s.name], some i, s⟩ : Slot) ∈ (Entry.group name description g).slots ∧
      (⟨[name, s.name], some i, s⟩ : Slot) ∈ Config.slots := by
  obtain ⟨i, hi⟩ := List.mem_iff_getElem?.mp hs
  have hslot : (⟨[name, s.name], some i, s⟩ : Slot) ∈ (Entry.group name description g).slots :=
    List.mem_map.mpr ⟨(s, i), List.mk_mem_zipIdx_iff_getElem?.mpr hi, rfl⟩
  exact ⟨i, hslot, List.mem_flatMap.mpr ⟨_, hg, hslot⟩⟩

theorem Entry.value_take_of_ne {e : Entry} (he : e ∈ Config.entries) (hx : x ∈ Config.slots)
    (h : ∀ y ∈ e.slots, y.path ≠ x.path) (j : Json) (c : Config) :
    x.setting.value (e.take j c) = x.setting.value c := by
  cases e with
  | setting s =>
    have hs : (⟨[s.name], none, s⟩ : Slot) ∈ (Entry.setting s).slots := List.mem_singleton.mpr rfl
    exact Setting.value_take_of_ne (List.mem_flatMap.mpr ⟨_, he, hs⟩) hx (h _ hs) j c
  | group name description g =>
    refine foldl_leavesAlone (fun m _ => leavesAlone_parts fun s hs _ j c => ?_) c
    obtain ⟨i, hslot, hmem⟩ := mem_slots he hs
    exact Setting.value_take_of_ne hmem hx (h _ hslot) j c

theorem Entry.leavesAlone {e : Entry} (hx : x ∈ e.slots) (hx' : x ∈ Config.slots) {other : String}
    (h : other ≠ e.name) :
    LeavesAlone x.setting.value (Config.entries.map fun e => (e.name, e.take)) other := by
  refine leavesAlone_parts fun e' he' hname j c => ?_
  refine Entry.value_take_of_ne he' hx' (fun y hy hpath => h ?_) j c
  have hheads := (head_of_mem_slots hy).symm.trans (hpath ▸ head_of_mem_slots hx)
  rw [← hname, Option.some.inj hheads]

theorem resolve_single (ms : Members Json) (name : String) :
    (Json.object ms).resolve [name] = Members.get? ms name := by
  rw [Json.resolve]
  cases Members.get? ms name <;> simp [Json.resolve]

theorem SettingGroup.value_take {name description : String} {g : SettingGroup}
    (hg : Entry.group name description g ∈ Config.entries) {s : Setting} (hs : s ∈ g.settings)
    {j : Json} (hfits : FitsMembers g.settings Setting.name Setting.Fits j) (c : Config) :
    (∀ k, j.resolve [s.name] = some k → s.kind.ofJson? k = some (s.value (g.take j c))) ∧
      (j.resolve [s.name] = none → s.value (g.take j c) = s.value c) := by
  obtain ⟨ms, rfl, hnodup, hfits⟩ := hfits
  obtain ⟨i, -, hmem⟩ := mem_slots hg hs
  have hothers : ∀ other ≠ s.name,
      LeavesAlone s.value (g.settings.map fun s => (s.name, s.take)) other := by
    refine fun other hne => leavesAlone_parts fun t ht hname j c => ?_
    obtain ⟨k, -, hmem'⟩ := mem_slots hg ht
    have hpath : [name, t.name] ≠ [name, s.name] := by
      simpa [hname] using hne
    exact Setting.value_take_of_ne hmem' hmem hpath j c
  obtain ⟨c₁, hc₁, hvalue⟩ := foldl_takeMember (f := s.value)
    (get?_parts Setting.take hs (ordered_of_mem hg).1) hothers hnodup c
  change s.value (g.take (.object ms) c) = _ at hvalue
  rw [resolve_single, hvalue, ← hc₁]
  exact Setting.value_take hmem
    (fun k hk => hfits (s.name, k) (Members.mem_of_get? hk) s hs rfl) c₁

/-- The setting of a place has the value that is there, or else its default. -/
theorem Config.value_ofJson {v : Json} (hfits : Config.Fits v) (hx : x ∈ Config.slots) :
    (∀ j, v.resolve x.path = some j →
      x.setting.kind.ofJson? j = some (x.setting.value (Config.ofJson v))) ∧
    (v.resolve x.path = none →
      x.setting.value (Config.ofJson v) = x.setting.value Config.standard) := by
  obtain ⟨ms, rfl, hnodup, hfits⟩ := hfits
  obtain ⟨e, he, hxe⟩ := List.mem_flatMap.mp hx
  obtain ⟨c₁, hc₁, hvalue⟩ := foldl_takeMember (f := x.setting.value)
    (get?_parts Entry.take he (by decide)) (fun _ => Entry.leavesAlone hxe hx) hnodup
    Config.standard
  change x.setting.value (Config.ofJson (.object ms)) = _ at hvalue
  cases e with
  | setting s =>
    obtain rfl := List.mem_singleton.mp hxe
    change (∀ j, (Json.object ms).resolve [s.name] = some j → _) ∧
      ((Json.object ms).resolve [s.name] = none → _)
    rw [resolve_single, hvalue, ← hc₁]
    exact Setting.value_take hx
      (fun j hj => hfits (s.name, j) (Members.mem_of_get? hj) _ he rfl) c₁
  | group name description g =>
    obtain ⟨m, hm, rfl⟩ := List.mem_map.mp hxe
    have hs : m.1 ∈ g.settings := List.fst_mem_of_mem_zipIdx hm
    change (∀ j, ((Members.get? ms name).bind fun j => j.resolve [m.1.name]) = some j → _) ∧
      (((Members.get? ms name).bind fun j => j.resolve [m.1.name]) = none → _)
    change m.1.value _ = m.1.value ((Members.get? ms name).elim c₁ fun j => g.take j c₁) at hvalue
    change m.1.value c₁ = m.1.value Config.standard at hc₁
    cases hget : Members.get? ms name with
    | none =>
      rw [hget] at hvalue
      exact ⟨nofun, fun _ => hvalue.trans hc₁⟩
    | some j =>
      rw [hget] at hvalue
      have hgroup := hfits (name, j) (Members.mem_of_get? hget) _ he rfl
      have htaken := SettingGroup.value_take he hs hgroup c₁
      change m.1.value _ = m.1.value (g.take j c₁) at hvalue
      rw [hvalue, ← hc₁]
      exact htaken

end Values

end GraphShape
