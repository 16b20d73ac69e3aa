import GraphShape.Json.Skipping
import GraphShape.Proofs.ReadBack

/-!
# Spelled values

A value can be written in many ways: with blanks between its tokens, and with escapes for the
characters of its strings. Each of these texts is read as the value where it is asked for, and it is
stepped over where it is not. The key fact is that the end of a value shows in its own text, but for
a number, which no text that follows a value in an array or an object can make longer.
-/

namespace GraphShape.Json

open Reader

/-! ## Tokens -/

/-- The letters of the short escapes, each with its character. -/
def shortEscapes : List (Char × Char) :=
  [('"', '"'), ('\\', '\\'), ('/', '/'), ('b', Char.ofNat 8), ('f', Char.ofNat 12), ('n', '\n'),
    ('r', '\r'), ('t', '\t')]

/-- A character between quotes: as it is, as a short escape, as its number, or as the numbers of
the halves of a surrogate pair. -/
inductive SpellsChar : List Char → Char → Prop
  | plain {ch : Char} (hquote : ch ≠ '"') (hslash : ch ≠ '\\') (hcontrol : ¬ ch.toNat < 32) :
      SpellsChar [ch] ch
  | short {letter ch : Char} (h : (letter, ch) ∈ shortEscapes) : SpellsChar ['\\', letter] ch
  | code {w x y z ch : Char} (h : hexValues? [w, x, y, z] = some ch.toNat) :
      SpellsChar ['\\', 'u', w, x, y, z] ch
  | pair {w x y z w' x' y' z' ch : Char} {high low : Nat}
      (hhigh : hexValues? [w, x, y, z] = some high) (hhigh' : 0xD800 ≤ high ∧ high ≤ 0xDBFF)
      (hlow : hexValues? [w', x', y', z'] = some low) (hlow' : 0xDC00 ≤ low ∧ low ≤ 0xDFFF)
      (hch : ch.toNat = (high - 0xD800) * 0x400 + (low - 0xDC00) + 0x10000) :
      SpellsChar ['\\', 'u', w, x, y, z, '\\', 'u', w', x', y', z'] ch

inductive SpellsChars : List Char → List Char → Prop
  | nil : SpellsChars [] []
  | cons {text more : List Char} {ch : Char} {cs : List Char} (h : SpellsChar text ch)
      (hmore : SpellsChars more cs) : SpellsChars (text ++ more) (ch :: cs)

/-- A string in quotes. -/
def SpellsString (text : List Char) (s : String) : Prop :=
  ∃ inside, SpellsChars inside s.toList ∧ text = '"' :: (inside ++ ['"'])

/-- Digits, of which there is at least one. -/
def Digits (text : List Char) : Prop := text ≠ [] ∧ ∀ ch ∈ text, isDigit ch = true

/-- A single zero, or digits that do not start with one. -/
def IsWhole (text : List Char) : Prop := text = ['0'] ∨ Digits text ∧ text.head? ≠ some '0'

def IsFraction (text : List Char) : Prop := text = [] ∨ ∃ ds, text = '.' :: ds ∧ Digits ds

def IsExponent (text : List Char) : Prop :=
  text = [] ∨ ∃ mark sign ds, text = mark :: (sign ++ ds) ∧ (mark = 'e' ∨ mark = 'E') ∧
    (sign = [] ∨ sign = ['+'] ∨ sign = ['-']) ∧ Digits ds

/-- A number without its sign. -/
inductive IsNumber : List Char → Prop
  | mk {whole fraction exponent : List Char} (hwhole : IsWhole whole)
      (hfraction : IsFraction fraction) (hexponent : IsExponent exponent) :
      IsNumber (whole ++ (fraction ++ exponent))

/-! ## Values -/

mutual

/-- The text is the value in writing. Which number it is that digits stand for is left open. -/
inductive Spells : List Char → Json → Prop
  | null : Spells ['n', 'u', 'l', 'l'] .null
  | yes : Spells ['t', 'r', 'u', 'e'] (.bool true)
  | no : Spells ['f', 'a', 'l', 's', 'e'] (.bool false)
  | number {text : List Char} (n : Number) (h : IsNumber text) : Spells text (.number n)
  | negative {text : List Char} (n : Number) (h : IsNumber text) :
      Spells ('-' :: text) (.number n)
  | string {text : List Char} {s : String} (h : SpellsString text s) : Spells text (.string s)
  | emptyArray {blanks : List Char} (h : Blanks blanks) :
      Spells ('[' :: (blanks ++ [']'])) (.array [])
  | array {text : List Char} {xs : List Json} (h : SpellsItems text xs) :
      Spells ('[' :: text) (.array xs)
  | emptyObject {blanks : List Char} (h : Blanks blanks) :
      Spells ('\x7b' :: (blanks ++ ['\x7d'])) (.object [])
  | object {text : List Char} {ms : List (String × Json)} (h : SpellsMembers text ms) :
      Spells ('\x7b' :: text) (.object ms)

/-- An item, those after it and the closing bracket. -/
inductive SpellsItems : List Char → List Json → Prop
  | last {blanks text blanks' : List Char} {x : Json} (h : Blanks blanks) (hx : Spells text x)
      (h' : Blanks blanks') : SpellsItems (blanks ++ (text ++ (blanks' ++ [']']))) [x]
  | more {blanks text blanks' rest : List Char} {x : Json} {xs : List Json} (h : Blanks blanks)
      (hx : Spells text x) (h' : Blanks blanks') (hxs : SpellsItems rest xs) :
      SpellsItems (blanks ++ (text ++ (blanks' ++ ',' :: rest))) (x :: xs)

/-- A member, those after it and the closing brace. -/
inductive SpellsMembers : List Char → List (String × Json) → Prop
  | last {blanks key before after text blanks' : List Char} {k : String} {x : Json}
      (h : Blanks blanks) (hk : SpellsString key k) (hbefore : Blanks before)
      (hafter : Blanks after) (hx : Spells text x) (h' : Blanks blanks') :
      SpellsMembers (blanks ++ (key ++ (before ++ ':' :: (after ++ (text ++ (blanks' ++
        ['\x7d'])))))) [(k, x)]
  | more {blanks key before after text blanks' rest : List Char} {k : String} {x : Json}
      {ms : List (String × Json)} (h : Blanks blanks) (hk : SpellsString key k)
      (hbefore : Blanks before) (hafter : Blanks after) (hx : Spells text x) (h' : Blanks blanks')
      (hms : SpellsMembers rest ms) :
      SpellsMembers (blanks ++ (key ++ (before ++ ':' :: (after ++ (text ++ (blanks' ++
        ',' :: rest)))))) ((k, x) :: ms)

end

/-- A whole text is a value between blanks. -/
def SpellsWhole (text : List Char) (v : Json) : Prop :=
  ∃ before body after, text = before ++ (body ++ after) ∧ Blanks before ∧ Spells body v ∧
    Blanks after

/-! ## Strings -/

theorem SpellsChar.cases {text : List Char} {ch : Char} (h : SpellsChar text ch) :
    (text = [ch] ∧ ch ≠ '"' ∧ ch ≠ '\\' ∧ ¬ ch.toNat < 32) ∨ ∃ escape, text = '\\' :: escape := by
  cases h with
  | plain hquote hslash hcontrol => exact .inl ⟨rfl, hquote, hslash, hcontrol⟩
  | _ => exact .inr ⟨_, rfl⟩

namespace Reads

variable {text before rest : List Char} {ch : Char} {k n : Nat}

theorem escaped (h : SpellsChar ('\\' :: text) ch) : Reads readEscape (text ++ rest) ch rest := by
  cases h with
  | plain _ hslash => exact absurd rfl hslash
  | short h =>
    simp only [shortEscapes, List.mem_cons, Prod.mk.injEq, List.not_mem_nil, or_false] at h
    rcases h with ⟨rfl, rfl⟩ | ⟨rfl, rfl⟩ | ⟨rfl, rfl⟩ | ⟨rfl, rfl⟩ | ⟨rfl, rfl⟩ | ⟨rfl, rfl⟩ |
      ⟨rfl, rfl⟩ | ⟨rfl, rfl⟩
    all_goals exact peek (skip (pure _ rest))
  | code h =>
    refine peek (skip (bind (hex h) ?_))
    -- A character is no half of a pair.
    have hvalid : ch.toNat < 0xD800 ∨ 0xDFFF < ch.toNat := by
      rcases ch.valid with h | h
      · exact .inl h
      · exact .inr h.1
    rw [if_neg (by omega), if_pos (by omega), Char.ofNat_toNat]
    exact pure ch rest
  | pair hhigh hhigh' hlow hlow' hch =>
    refine peek (skip (bind (hex hhigh) ?_))
    rw [if_neg (by omega), if_neg (by omega)]
    refine peek (skip (peek (skip (bind (hex hlow) ?_))))
    rw [if_neg (by omega), ← hch, Char.ofNat_toNat]
    exact pure ch rest

theorem spelledChars {cs : List Char} (h : SpellsChars text cs) (seen rest : List Char)
    (hn : text.length < n) :
    Reads (readChars n seen) (text ++ '"' :: rest) (String.ofList (seen.reverse ++ cs)) rest := by
  induction h generalizing n seen with
  | nil =>
    obtain ⟨n, rfl⟩ := Nat.exists_eq_add_of_lt hn
    rw [List.append_nil]
    exact peek (skip (pure _ rest))
  | @cons text more ch cs h _ ih =>
    rw [List.length_append] at hn
    obtain ⟨n, rfl⟩ : ∃ m, n = m + 1 := ⟨n - 1, by omega⟩
    have hmore : more.length < n → Reads (readChars n (ch :: seen)) (more ++ '"' :: rest)
        (String.ofList (seen.reverse ++ ch :: cs)) rest := by
      intro hn
      have hread := ih (ch :: seen) hn
      rwa [List.reverse_cons, List.append_assoc, List.singleton_append] at hread
    rw [List.append_assoc]
    rcases h.cases with ⟨rfl, hquote, hslash, hcontrol⟩ | ⟨escape, rfl⟩
    · refine peek ?_
      simp only [List.singleton_append, List.head?_cons, hcontrol, if_false]
      exact skip (hmore (by simp at hn; omega))
    · rw [List.length_cons] at hn
      exact peek (skip (bind (escaped h) (hmore (by omega))))

theorem skippedEscape (h : SpellsChar ('\\' :: text) ch)
    (hmore : ∀ m, k < m → Reads (skipChars m) before () rest) (hn : k + text.length ≤ n) :
    Reads (skipChars (n + 1)) ('\\' :: (text ++ before)) () rest := by
  refine peek (skip ?_)
  cases h with
  | plain _ hslash => exact absurd rfl hslash
  | short h =>
    have hnext := hmore n (by simp at hn; omega)
    simp only [shortEscapes, List.mem_cons, Prod.mk.injEq, List.not_mem_nil, or_false] at h
    rcases h with ⟨rfl, rfl⟩ | ⟨rfl, rfl⟩ | ⟨rfl, rfl⟩ | ⟨rfl, rfl⟩ | ⟨rfl, rfl⟩ | ⟨rfl, rfl⟩ |
      ⟨rfl, rfl⟩ | ⟨rfl, rfl⟩
    all_goals exact peek (skip hnext)
  | code h =>
    simp only [List.length_cons, List.length_nil] at hn
    exact peek (skip (bind (hex h) (hmore n (by omega))))
  | pair hhigh hhigh' hlow hlow' hch =>
    simp only [List.length_cons, List.length_nil] at hn
    obtain ⟨n, rfl⟩ : ∃ m, n = m + 1 := ⟨n - 1, by omega⟩
    have hnext := hmore n (by omega)
    exact peek (skip (bind (hex hhigh) (peek (skip (peek (skip (bind (hex hlow) hnext)))))))

theorem skippedChars {cs : List Char} (h : SpellsChars text cs) (rest : List Char)
    (hn : text.length < n) : Reads (skipChars n) (text ++ '"' :: rest) () rest := by
  induction h generalizing n with
  | nil =>
    obtain ⟨n, rfl⟩ := Nat.exists_eq_add_of_lt hn
    exact peek (skip_last '"' rest)
  | @cons text more ch cs h _ ih =>
    rw [List.length_append] at hn
    obtain ⟨n, rfl⟩ : ∃ m, n = m + 1 := ⟨n - 1, by omega⟩
    rw [List.append_assoc]
    rcases h.cases with ⟨rfl, hquote, hslash, hcontrol⟩ | ⟨escape, rfl⟩
    · refine peek ?_
      simp only [List.singleton_append, List.head?_cons, hcontrol, if_false]
      exact skip (ih (by simp at hn; omega))
    · rw [List.length_cons] at hn
      exact skippedEscape h (fun m hm => ih hm) (by omega)

theorem spelledString {s : String} (h : SpellsString text s) :
    Reads readQuoted (text ++ rest) s rest := by
  obtain ⟨inside, hinside, rfl⟩ := h
  have hchars := spelledChars hinside [] rest
    (n := (inside ++ '"' :: rest).length + 1) (by rw [List.length_append]; omega)
  rw [List.reverse_nil, List.nil_append, String.ofList_toList] at hchars
  rw [List.cons_append, List.append_assoc, List.singleton_append]
  refine skip fun c hc => ?_
  rw [← hc] at hchars
  exact hchars c rfl

theorem skippedString {s : String} (h : SpellsString text s) (rest : List Char) :
    Reads skipQuoted (text ++ rest) () rest := by
  obtain ⟨inside, hinside, rfl⟩ := h
  have hchars := skippedChars hinside rest
    (n := (inside ++ '"' :: rest).length + 1) (by rw [List.length_append]; omega)
  rw [List.cons_append, List.append_assoc, List.singleton_append]
  refine skip fun c hc => ?_
  rw [← hc] at hchars
  exact hchars c rfl

/-! ## Numbers -/

theorem skippedDigits (h : Digits text) (hrest : ∀ ch ∈ rest.head?, isDigit ch = false) :
    Reads skipDigits (text ++ rest) () rest := by
  obtain ⟨hne, hdigits⟩ := h
  have hnone : rest.takeWhile isDigit = [] := by
    cases rest with
    | nil => rfl
    | cons ch rest => simp [hrest ch rfl]
  have hpeek := peekDigits (text ++ rest)
  rw [List.takeWhile_append_of_pos hdigits, hnone, List.append_nil] at hpeek
  refine hpeek.bind ?_
  rw [List.isEmpty_eq_false_iff.mpr hne]
  exact skipMany text rest

theorem skippedExponent (h : IsExponent text) (hrest : EndsNumber rest) :
    Reads skipExponent (text ++ rest) () rest := by
  refine peek ?_
  rcases h with rfl | ⟨mark, sign, ds, rfl, hmark, hsign, hds⟩
  · cases rest with
    | nil => exact pure () []
    | cons ch rest =>
      obtain ⟨-, -, he, hE⟩ := hrest ch rfl
      simpa [he, hE] using pure () (ch :: rest)
  · have hdigits := skippedDigits hds fun ch hch => (hrest ch hch).1
    rw [List.cons_append, List.append_assoc]
    rcases hmark with rfl | rfl
    all_goals
      refine skip (peek ?_)
      rcases hsign with rfl | rfl | rfl
      · obtain ⟨d, more, rfl⟩ := List.exists_cons_of_ne_nil hds.1
        have hd := hds.2 d List.mem_cons_self
        simpa [ne_of_isDigit hd, isDigit] using hdigits
      · exact skip hdigits
      · exact skip hdigits

theorem head_exponent (h : IsExponent text) (hrest : EndsNumber rest) :
    ∀ ch ∈ (text ++ rest).head?, isDigit ch = false ∧ ch ≠ '.' := by
  rcases h with rfl | ⟨mark, sign, ds, rfl, rfl | rfl, -⟩
  · exact fun ch hch => ⟨(hrest ch hch).1, (hrest ch hch).2.1⟩
  · rintro ch ⟨⟩
    decide
  · rintro ch ⟨⟩
    decide

theorem skippedFraction {fraction : List Char} (h : IsFraction fraction)
    (hexponent : IsExponent text) (hrest : EndsNumber rest) :
    Reads (do
      match ← Reader.peek with
      | some '.' => do Reader.skip; skipDigits
      | _ => Pure.pure ()
      skipExponent) (fraction ++ (text ++ rest)) () rest := by
  have hskip := skippedExponent hexponent hrest
  have hhead := head_exponent hexponent hrest
  refine peek ?_
  rcases h with rfl | ⟨ds, rfl, hds⟩
  · rw [List.nil_append]
    cases hnext : text ++ rest with
    | nil =>
      rw [hnext] at hskip
      exact hskip
    | cons ch more =>
      rw [hnext] at hskip hhead
      simpa [(hhead ch rfl).2] using hskip
  · exact skip ((skippedDigits hds fun ch hch => (hhead ch hch).1).bind hskip)

theorem skippedNumber (h : IsNumber text) (hrest : EndsNumber rest) :
    Reads skipNumber (text ++ rest) () rest := by
  obtain ⟨hwhole, hfraction, hexponent⟩ := h
  rename_i whole fraction exponent
  have hskip := skippedFraction hfraction hexponent hrest
  have hhead : ∀ ch ∈ (fraction ++ (exponent ++ rest)).head?, isDigit ch = false := by
    rcases hfraction with rfl | ⟨ds, rfl, -⟩
    · exact fun ch hch => (head_exponent hexponent hrest ch hch).1
    · rintro ch ⟨⟩
      decide
  simp only [List.append_assoc]
  refine peek ?_
  rcases hwhole with rfl | ⟨hdigits, hzero⟩
  · rw [List.singleton_append]
    refine skip (peek ?_)
    cases hnext : fraction ++ (exponent ++ rest) with
    | nil =>
      rw [hnext] at hskip
      exact hskip
    | cons ch more =>
      rw [hnext] at hskip hhead
      simp only [List.head?_cons, hhead ch rfl, Bool.false_eq_true, if_false]
      exact hskip
  · have hdigits' := skippedDigits hdigits hhead
    obtain ⟨d, more, rfl⟩ := List.exists_cons_of_ne_nil hdigits.1
    have hd : d ≠ '0' := fun h => hzero (h ▸ rfl)
    split
    · rename_i heq
      cases heq
      exact absurd rfl hd
    · exact bind hdigits' hskip

end Reads

/-! ## Where values begin and end -/

theorem IsNumber.head {text : List Char} (h : IsNumber text) :
    ∃ ch more, text = ch :: more ∧ isDigit ch = true := by
  obtain ⟨hwhole, -, -⟩ := h
  rcases hwhole with rfl | ⟨⟨hne, hdigits⟩, -⟩
  · exact ⟨_, _, rfl, by decide⟩
  · obtain ⟨d, more, rfl⟩ := List.exists_cons_of_ne_nil hne
    exact ⟨d, _, rfl, hdigits d List.mem_cons_self⟩

theorem Spells.head {text : List Char} {v : Json} (h : Spells text v) :
    ∃ ch more, text = ch :: more ∧ isBlank ch = false ∧ ch ≠ ']' := by
  cases h with
  | number n h =>
    obtain ⟨ch, more, rfl, hdigit⟩ := h.head
    exact ⟨ch, more, rfl, isBlank_of_isDigit hdigit, ne_of_isDigit hdigit (by decide)⟩
  | string h =>
    obtain ⟨inside, -, rfl⟩ := h
    exact ⟨_, _, rfl, by decide⟩
  | _ => exact ⟨_, _, rfl, by decide⟩

theorem SpellsItems.head {text : List Char} {xs : List Json} (h : SpellsItems text xs) :
    ∃ blanks ch more, text = blanks ++ ch :: more ∧ Blanks blanks ∧ isBlank ch = false ∧ ch ≠ ']' ∧
      SpellsItems (ch :: more) xs := by
  cases h with
  | last h hx h' =>
    obtain ⟨ch, more, rfl, hch, hend⟩ := hx.head
    exact ⟨_, ch, _, rfl, h, hch, hend, .last .nil hx h'⟩
  | more h hx h' hxs =>
    obtain ⟨ch, more, rfl, hch, hend⟩ := hx.head
    exact ⟨_, ch, _, rfl, h, hch, hend, .more .nil hx h' hxs⟩

theorem SpellsMembers.head {text : List Char} {ms : List (String × Json)}
    (h : SpellsMembers text ms) :
    ∃ blanks more, text = blanks ++ '"' :: more ∧ Blanks blanks ∧
      SpellsMembers ('"' :: more) ms := by
  cases h with
  | last h hk hbefore hafter hx h' =>
    have hk' := hk
    obtain ⟨inside, -, rfl⟩ := hk
    exact ⟨_, _, rfl, h, .last .nil hk' hbefore hafter hx h'⟩
  | more h hk hbefore hafter hx h' hms =>
    have hk' := hk
    obtain ⟨inside, -, rfl⟩ := hk
    exact ⟨_, _, rfl, h, .more .nil hk' hbefore hafter hx h' hms⟩

theorem Blanks.endsNumber {blanks : List Char} (h : Blanks blanks) {ch : Char} (rest : List Char)
    (hch : isDigit ch = false ∧ ch ≠ '.' ∧ ch ≠ 'e' ∧ ch ≠ 'E') :
    EndsNumber (blanks ++ ch :: rest) := by
  cases blanks with
  | nil => exact endsNumber_cons rest hch
  | cons blank blanks =>
    have hblank := h blank List.mem_cons_self
    simp only [isBlank, Bool.or_eq_true, decide_eq_true_eq] at hblank
    refine endsNumber_cons _ ?_
    rcases hblank with ((rfl | rfl) | rfl) | rfl
    all_goals decide

/-! ## Values that are stepped over -/

/-- So many steps are enough for all texts of that length. -/
structure Skips (n : Nat) : Prop where
  value : ∀ {text blanks rest : List Char} {v : Json}, Spells text v → text.length ≤ n →
    Blanks blanks → EndsNumber rest → Reads (skipValue n) (blanks ++ (text ++ rest)) () rest
  items : ∀ {text rest : List Char} {xs : List Json}, SpellsItems text xs → text.length ≤ n →
    Reads (skipItems n) (text ++ rest) () rest
  members : ∀ {text rest : List Char} {ms : List (String × Json)}, SpellsMembers text ms →
    text.length ≤ n → Reads (skipMembers n) (text ++ rest) () rest

namespace Reads

variable {text blanks rest : List Char} {v : Json} {n : Nat}

theorem spelledColon (rest : List Char) (h : Blanks blanks) :
    Reads readColon (blanks ++ ':' :: rest) () rest := token h (by decide) (skip_last ':' rest)

theorem skippedValue (hskips : Skips n) (h : Spells text v) (hn : text.length ≤ n + 1)
    (hblanks : Blanks blanks) (hrest : EndsNumber rest) :
    Reads (skipValue (n + 1)) (blanks ++ (text ++ rest)) () rest := by
  cases h with
  | null => exact token hblanks (by decide) (skip (letters ['u', 'l', 'l'] rest))
  | yes => exact token hblanks (by decide) (skip (letters ['r', 'u', 'e'] rest))
  | no => exact token hblanks (by decide) (skip (letters ['a', 'l', 's', 'e'] rest))
  | number _ h =>
    have hnumber := skippedNumber h hrest
    obtain ⟨d, ds, rfl, hd⟩ := h.head
    refine token hblanks (isBlank_of_isDigit hd) ?_
    -- With these no case in front of the digits matches.
    obtain ⟨hn, ht, hf, hminus, hquote, hbracket, hbrace⟩ : d ≠ 'n' ∧ d ≠ 't' ∧ d ≠ 'f' ∧ d ≠ '-' ∧
        d ≠ '"' ∧ d ≠ '[' ∧ d ≠ '\x7b' := by simp [ne_of_isDigit hd, isDigit]
    simp only [hd, if_true]
    exact hnumber
  | negative _ h => exact token hblanks (by decide) (skip (skippedNumber h hrest))
  | string h =>
    have hstring := skippedString h rest
    obtain ⟨inside, -, rfl⟩ := h
    exact token hblanks (by decide) hstring
  | emptyArray h =>
    rw [List.cons_append, List.append_assoc]
    exact token hblanks (by decide) (skip (token h (by decide) (skip_last ']' rest)))
  | array h =>
    obtain ⟨blanks', ch, more, rfl, hblanks', hch, hend, hitems⟩ := h.head
    rw [List.cons_append, List.append_assoc]
    refine token hblanks (by decide) (skip (token hblanks' hch ?_))
    simp only [List.length_cons, List.length_append] at hn
    have hskip : Reads (skipItems n) (ch :: more ++ rest) () rest :=
      hskips.items hitems (by rw [List.length_cons]; omega)
    simpa [hend] using hskip
  | emptyObject h =>
    rw [List.cons_append, List.append_assoc]
    exact token hblanks (by decide) (skip (token h (by decide) (skip_last '\x7d' rest)))
  | object h =>
    obtain ⟨blanks', more, rfl, hblanks', hmembers⟩ := h.head
    rw [List.cons_append, List.append_assoc]
    refine token hblanks (by decide) (skip (token hblanks' (by decide) ?_))
    simp only [List.length_cons, List.length_append] at hn
    exact hskips.members hmembers (by rw [List.length_cons]; omega)

theorem skippedItems {xs : List Json} (hskips : Skips n) (h : SpellsItems text xs)
    (hn : text.length ≤ n + 1) : Reads (skipItems (n + 1)) (text ++ rest) () rest := by
  cases h with
  | @last _ _ blanks' _ h hx h' =>
    simp only [List.length_append, List.length_cons] at hn
    simp only [List.append_assoc, List.singleton_append]
    have hends : EndsNumber (blanks' ++ ']' :: rest) := h'.endsNumber rest (by decide)
    exact bind (hskips.value hx (by omega) h hends) (token h' (by decide) (skip_last ']' rest))
  | @more _ _ blanks' rest' _ _ h hx h' hxs =>
    simp only [List.length_append, List.length_cons] at hn
    simp only [List.append_assoc, List.cons_append]
    have hends : EndsNumber (blanks' ++ ',' :: (rest' ++ rest)) := h'.endsNumber _ (by decide)
    exact bind (hskips.value hx (by omega) h hends)
      (token h' (by decide) (skip (hskips.items hxs (by omega))))

theorem skippedMember {key before after last next : List Char} {k : String} (hskips : Skips n)
    (hblanks : Blanks blanks) (hk : SpellsString key k) (hbefore : Blanks before)
    (hafter : Blanks after) (hx : Spells text v) (hn : text.length ≤ n) (hnext : EndsNumber next)
    (hclose : Reads (do
      match ← Json.peekToken with
      | some ',' => do Reader.skip; skipMembers n
      | some '\x7d' => Reader.skip
      | some _ => failNext .expectedObjectEnd
      | none => failNext .endInObject) next () last) :
    Reads (skipMembers (n + 1))
      (blanks ++ (key ++ (before ++ ':' :: (after ++ (text ++ next))))) () last := by
  have hkey := skippedString hk (before ++ ':' :: (after ++ (text ++ next)))
  have hvalue := hskips.value hx hn hafter hnext
  obtain ⟨inside, -, rfl⟩ := hk
  refine token hblanks (by decide) ?_
  exact bind hkey (bind (spelledColon _ hbefore) (bind hvalue hclose))

theorem skippedMembers {ms : List (String × Json)} (hskips : Skips n) (h : SpellsMembers text ms)
    (hn : text.length ≤ n + 1) : Reads (skipMembers (n + 1)) (text ++ rest) () rest := by
  cases h with
  | last h hk hbefore hafter hx h' =>
    simp only [List.length_append, List.length_cons] at hn
    simp only [List.append_assoc, List.cons_append, List.nil_append]
    exact skippedMember hskips h hk hbefore hafter hx (by omega)
      (h'.endsNumber rest (by decide)) (token h' (by decide) (skip_last '\x7d' rest))
  | @more _ _ _ _ _ _ rest' _ _ _ h hk hbefore hafter hx h' hms =>
    simp only [List.length_append, List.length_cons] at hn
    simp only [List.append_assoc, List.cons_append]
    exact skippedMember hskips h hk hbefore hafter hx (by omega)
      (h'.endsNumber (rest' ++ rest) (by decide))
      (token h' (by decide) (skip (hskips.members hms (by omega))))

end Reads

theorem skips : ∀ n, Skips n
  | 0 => by
    refine ⟨fun h hn _ _ => ?_, fun h hn => ?_, fun h hn => ?_⟩
    · obtain ⟨ch, more, rfl, -⟩ := h.head
      cases hn
    · obtain ⟨blanks, ch, more, rfl, -⟩ := h.head
      simp at hn
    · obtain ⟨blanks, more, rfl, -⟩ := h.head
      simp at hn
  | n + 1 => ⟨Reads.skippedValue (skips n), Reads.skippedItems (skips n),
      Reads.skippedMembers (skips n)⟩

/-! ## Written values -/

theorem spellsChar_escapeChar (ch : Char) : SpellsChar (escapeChar ch) ch := by
  unfold escapeChar
  split_ifs with h1 h2 h3 h4 h5 h6 h7 h8
  · exact .short (by simp [h1, shortEscapes])
  · exact .short (by simp [h2, shortEscapes])
  · exact .short (by simp [h3, shortEscapes])
  · exact .short (by simp [h4, shortEscapes])
  · exact .short (by simp [h5, shortEscapes])
  · have hch : ch = Char.ofNat 8 := by rw [← h6, Char.ofNat_toNat]
    exact .short (by simp [hch, shortEscapes])
  · have hch : ch = Char.ofNat 12 := by rw [← h7, Char.ofNat_toNat]
    exact .short (by simp [hch, shortEscapes])
  · exact .code (Reads.hexValues?_escape _ h8)
  · exact .plain h1 h2 h8

theorem spellsChars_flatMap (cs : List Char) : SpellsChars (cs.flatMap escapeChar) cs := by
  induction cs with
  | nil => exact .nil
  | cons ch cs ih => exact .cons (spellsChar_escapeChar ch) ih

theorem spellsString_quoted (s : String) : SpellsString (quoted s) s :=
  ⟨_, spellsChars_flatMap s.toList, rfl⟩

theorem isNumber_toDigits (n : Nat) : IsNumber (Nat.toDigits 10 n) := by
  have hwhole : IsWhole (Nat.toDigits 10 n) := by
    by_cases hzero : n = 0
    · subst hzero
      exact .inl rfl
    · exact .inr ⟨⟨Nat.toDigits_ne_nil, fun ch => isDigit_of_mem_toDigits⟩, head_toDigits n hzero⟩
  have h := IsNumber.mk hwhole (.inl rfl) (.inl rfl)
  rwa [List.append_nil, List.append_nil] at h

theorem spells_wholeText (n : Int) : Spells (wholeText n) (.number (.whole n)) := by
  unfold wholeText
  split
  · exact .negative _ (isNumber_toDigits _)
  · exact .number _ (isNumber_toDigits _)

theorem blanks_colon (style : Style) : ∃ blanks, style.colon = ':' :: blanks ∧ Blanks blanks := by
  cases style with
  | compact => exact ⟨[], rfl, .nil⟩
  | pretty => exact ⟨[' '], rfl, .space⟩

mutual

/-- An exact value is written in one of the ways that are read. -/
theorem spells_write (style : Style) (level : Nat) (j : Json) (h : j.Exact) :
    Spells (j.write style level) j := by
  match j, h with
  | .null, _ => exact .null
  | .bool true, _ => exact .yes
  | .bool false, _ => exact .no
  | .number (.whole n), _ => exact spells_wholeText n
  | .string s, _ => exact .string (spellsString_quoted s)
  | .array [], _ => exact .emptyArray .nil
  | .array (x :: xs), ⟨hx, hxs⟩ =>
    rw [write, List.append_assoc]
    exact .array (spells_writeItems style level xs hxs (spells_write style (level + 1) x hx))
  | .object [], _ => exact .emptyObject .nil
  | .object ((k, x) :: ms), ⟨_, hx, hms⟩ =>
    simp only [write, List.append_assoc]
    exact .object (spells_writeMembers style level ms hms k (spells_write style (level + 1) x hx))

theorem spells_writeItems (style : Style) (level : Nat) (xs : List Json) (hxs : ExactItems xs)
    {text : List Char} {x : Json} (hx : Spells text x) :
    SpellsItems (style.newline (level + 1) ++ (text ++ writeItems style level xs)) (x :: xs) := by
  match xs, hxs with
  | [], _ => exact .last (.newline _ _) hx (.newline _ _)
  | y :: ys, ⟨hy, hys⟩ =>
    rw [writeItems, List.append_assoc]
    have hmore := spells_writeItems style level ys hys (spells_write style (level + 1) y hy)
    have hitems := SpellsItems.more (.newline style (level + 1)) hx .nil hmore
    exact hitems

theorem spells_writeMembers (style : Style) (level : Nat) (ms : List (String × Json))
    (hms : ExactMembers ms) (k : String) {text : List Char} {x : Json} (hx : Spells text x) :
    SpellsMembers (style.newline (level + 1) ++ (quoted k ++ (style.colon ++
      (text ++ writeMembers style level ms)))) ((k, x) :: ms) := by
  obtain ⟨blanks, hcolon, hblanks⟩ := blanks_colon style
  rw [hcolon]
  match ms, hms with
  | [], _ =>
    have hmembers := SpellsMembers.last (.newline style (level + 1)) (spellsString_quoted k) .nil
      hblanks hx (.newline style level)
    exact hmembers
  | (l, y) :: ms, ⟨hy, hms⟩ =>
    simp only [writeMembers, List.append_assoc]
    have hmore := spells_writeMembers style level ms hms l (spells_write style (level + 1) y hy)
    have hmembers := SpellsMembers.more (.newline style (level + 1)) (spellsString_quoted k) .nil
      hblanks hx .nil hmore
    exact hmembers

end

end GraphShape.Json
