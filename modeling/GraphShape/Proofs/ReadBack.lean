import GraphShape.Json.Writer
import GraphShape.Proofs.Tokens

/-!
# Reading written values

A written value is read back, whichever style it is written in. The key fact is that a reader of
the items or the members that are left gives all of them behind those it has seen, so one induction
over the value serves every level of nesting.
-/

namespace GraphShape.Json

open Reader

/-! ## Values that are read back -/

/-- A whole number of 64 bits, with or without a sign. -/
def Number.Exact : Number → Prop
  | .whole n => -9223372036854775808 ≤ n ∧ n ≤ 18446744073709551615
  | .double _ => False

mutual

/-- No object has a key twice, and all numbers are exact. -/
def Exact : Json → Prop
  | .number n => n.Exact
  | .array xs => ExactItems xs
  | .object ms => (Members.names ms).Nodup ∧ ExactMembers ms
  | _ => True

def ExactItems : List Json → Prop
  | [] => True
  | x :: xs => Exact x ∧ ExactItems xs

def ExactMembers : List (String × Json) → Prop
  | [] => True
  | (_, x) :: ms => Exact x ∧ ExactMembers ms

end

mutual

/-- How many arrays and objects stand in one another. -/
def nesting : Json → Nat
  | .array xs => nestingItems xs + 1
  | .object ms => nestingMembers ms + 1
  | _ => 0

def nestingItems : List Json → Nat
  | [] => 0
  | x :: xs => max (nesting x) (nestingItems xs)

def nestingMembers : List (String × Json) → Nat
  | [] => 0
  | (_, x) :: ms => max (nesting x) (nestingMembers ms)

end

/-! ## Where tokens begin and end -/

theorem ne_of_isDigit {ch other : Char} (h : isDigit ch = true) (ho : isDigit other = false) :
    ch ≠ other := by
  rintro rfl
  simp [h] at ho

theorem isBlank_of_isDigit {ch : Char} (h : isDigit ch = true) : isBlank ch = false := by
  simp [isBlank, ne_of_isDigit h, isDigit]

theorem wholeText_eq_cons (n : Int) :
    ∃ ch more, wholeText n = ch :: more ∧ (ch = '-' ∨ isDigit ch = true) := by
  unfold wholeText
  split
  · exact ⟨_, _, rfl, .inl rfl⟩
  · obtain ⟨d, ds, hdigits, hd⟩ := toDigits_eq_cons n.natAbs
    exact ⟨d, ds, hdigits, .inr hd⟩

theorem write_eq_cons (style : Style) (level : Nat) {j : Json} (h : j.Exact) :
    ∃ ch more, j.write style level = ch :: more ∧ isBlank ch = false ∧ ch ≠ ']' := by
  cases j with
  | null => exact ⟨_, _, rfl, by decide⟩
  | bool b => cases b <;> exact ⟨_, _, rfl, by decide⟩
  | number n =>
    cases n with
    | whole n =>
      obtain ⟨ch, more, htext, rfl | hdigit⟩ := wholeText_eq_cons n
      · exact ⟨_, _, htext, by decide⟩
      · exact ⟨_, _, htext, isBlank_of_isDigit hdigit, ne_of_isDigit hdigit (by decide)⟩
    | double d => exact h.elim
  | string s => exact ⟨_, _, rfl, by decide⟩
  | array xs => cases xs <;> exact ⟨_, _, rfl, by decide⟩
  | object ms => rcases ms with - | ⟨⟨k, x⟩, ms⟩ <;> exact ⟨_, _, rfl, by decide⟩

theorem length_write_pos (style : Style) (level : Nat) {j : Json} (h : j.Exact) :
    0 < (j.write style level).length := by
  obtain ⟨ch, more, hwrite, -⟩ := write_eq_cons style level h
  simp [hwrite]

theorem length_writeItems_pos (style : Style) (level : Nat) (xs : List Json) :
    0 < (writeItems style level xs).length := by
  cases xs <;> simp [writeItems]

theorem length_writeMembers_pos (style : Style) (level : Nat) (ms : List (String × Json)) :
    0 < (writeMembers style level ms).length := by
  rcases ms with - | ⟨⟨k, x⟩, ms⟩ <;> simp [writeMembers]

theorem endsNumber_cons {ch : Char} (rest : List Char)
    (h : isDigit ch = false ∧ ch ≠ '.' ∧ ch ≠ 'e' ∧ ch ≠ 'E') : EndsNumber (ch :: rest) := by
  rintro _ ⟨⟩
  exact h

theorem endsNumber_writeItems (style : Style) (level : Nat) (xs : List Json) (rest : List Char) :
    EndsNumber (writeItems style level xs ++ rest) := by
  cases xs <;> cases style <;> exact endsNumber_cons _ (by decide)

theorem endsNumber_writeMembers (style : Style) (level : Nat) (ms : List (String × Json))
    (rest : List Char) : EndsNumber (writeMembers style level ms ++ rest) := by
  rcases ms with - | ⟨⟨k, x⟩, ms⟩ <;> cases style <;> exact endsNumber_cons _ (by decide)

namespace Reads

variable {blanks before rest : List Char} {ch : Char} {n depth : Nat}

/-! ## Values without parts -/

theorem null (hblanks : Blanks blanks) :
    Reads (readValue (n + 1) depth) (blanks ++ ("null".toList ++ rest)) .null rest :=
  token hblanks (by decide) (skip ((letters ['u', 'l', 'l'] rest).bind (pure _ rest)))

theorem bool (b : Bool) (level : Nat) (style : Style) (hblanks : Blanks blanks) :
    Reads (readValue (n + 1) depth) (blanks ++ ((Json.bool b).write style level ++ rest)) (.bool b)
      rest := by
  cases b with
  | true => exact token hblanks (by decide) (skip ((letters ['r', 'u', 'e'] rest).bind (pure _ rest)))
  | false =>
    exact token hblanks (by decide) (skip ((letters ['a', 'l', 's', 'e'] rest).bind (pure _ rest)))

theorem quotedValue (s : String) (hblanks : Blanks blanks) :
    Reads (readValue (n + 1) depth) (blanks ++ (quoted s ++ rest)) (.string s) rest :=
  token hblanks (by decide) ((string s rest).bind (pure _ rest))

theorem whole {k : Int} (h : (Number.whole k).Exact) (hblanks : Blanks blanks)
    (hrest : EndsNumber rest) :
    Reads (readValue (n + 1) depth) (blanks ++ (wholeText k ++ rest)) (.number (.whole k)) rest := by
  obtain ⟨hlow, hhigh⟩ := h
  have hmax : maxWhole = 2 ^ 64 - 1 := rfl
  have hpow : Nat.pow 2 63 = 2 ^ 63 := rfl
  rw [wholeText]
  split
  · have hnumber : Reads (readNumber true) (Nat.toDigits 10 k.natAbs ++ rest) (.whole k) rest := by
      refine number hrest (by omega) ?_
      rw [wholeNumber, if_pos rfl, if_neg (by omega), if_pos (by omega), Option.some.injEq,
        Number.whole.injEq]
      omega
    exact token hblanks (by decide) (skip (hnumber.bind (pure _ rest)))
  · have hnumber : Reads (readNumber false) (Nat.toDigits 10 k.natAbs ++ rest) (.whole k) rest := by
      refine number hrest (by omega) ?_
      rw [wholeNumber, if_neg (by decide), Option.some.injEq, Number.whole.injEq]
      omega
    obtain ⟨d, ds, hdigits, hd⟩ := toDigits_eq_cons k.natAbs
    rw [hdigits] at hnumber ⊢
    refine token hblanks (isBlank_of_isDigit hd) ?_
    -- With these no case in front of the digits matches.
    obtain ⟨hn, ht, hf, hminus, hquote, hbracket, hbrace⟩ : d ≠ 'n' ∧ d ≠ 't' ∧ d ≠ 'f' ∧ d ≠ '-' ∧
        d ≠ '"' ∧ d ≠ '[' ∧ d ≠ '\x7b' := by simp [ne_of_isDigit hd, isDigit]
    simp only [hd, if_true]
    exact hnumber.bind (pure _ rest)

/-! ## Parts -/

section Parts

variable {style : Style} {level : Nat} {first : Bool} {x j : Json} {tail after : List Char}

theorem firstItem (hx : x.Exact) (hblanks : Blanks blanks) :
    Reads (hasItem true) (blanks ++ (x.write style level ++ rest)) true
      (x.write style level ++ rest) := by
  obtain ⟨ch, more, hwrite, hch, hend⟩ := write_eq_cons style level hx
  rw [hwrite]
  refine token hblanks hch ?_
  simp only [if_true]
  exact pure true _

theorem nextItem (hx : x.Exact) (hblanks : Blanks blanks) :
    Reads (hasItem false) (',' :: (blanks ++ (x.write style level ++ rest))) true
      (x.write style level ++ rest) := by
  obtain ⟨ch, more, hwrite, hch, hend⟩ := write_eq_cons style level hx
  rw [hwrite]
  refine token .nil (by decide) (skip (token hblanks hch ?_))
  simpa [hend] using pure true (ch :: more ++ rest)

theorem item {more : List Char} {seen : List Json} (hitem : Reads (hasItem first) before true more)
    (hvalue : Reads (readValue n depth) more x tail)
    (hmore : Reads (readItems n depth false (x :: seen)) tail j after) :
    Reads (readItems (n + 1) depth first seen) before j after :=
  hitem.bind (hvalue.bind hmore)

theorem lastItem (seen : List Json) (hblanks : Blanks blanks) :
    Reads (readItems (n + 1) depth first seen) (blanks ++ ']' :: rest) (.array seen.reverse) rest :=
  bind (token hblanks (by decide) (pure false _)) (skip (pure _ rest))

theorem firstMember (k : String) (hblanks : Blanks blanks) :
    Reads (hasMember true) (blanks ++ (quoted k ++ rest)) true (quoted k ++ rest) :=
  token hblanks (by decide) (pure true _)

theorem nextMember (k : String) (hblanks : Blanks blanks) :
    Reads (hasMember false) (',' :: (blanks ++ (quoted k ++ rest))) true (quoted k ++ rest) :=
  token .nil (by decide) (skip (token hblanks (by decide) (pure true _)))

theorem colon (rest : List Char) : Reads readColon (':' :: rest) () rest :=
  token .nil (by decide) (skip_last ':' rest)

theorem member {k : String} {seen : Members Json} {text : List Char}
    (hmember : Reads (hasMember first) before true (quoted k ++ (style.colon ++ text)))
    (hvalue : ∀ blanks, Blanks blanks → Reads (readValue n depth) (blanks ++ text) x tail)
    (hmore : Reads (readMembers n depth false (seen.put k x)) tail j after) :
    Reads (readMembers (n + 1) depth first seen) before j after := by
  refine hmember.bind ((string k _).bind ?_)
  cases style with
  | compact => exact (colon text).bind ((hvalue [] .nil).bind hmore)
  | pretty => exact (colon (' ' :: text)).bind ((hvalue [' '] .space).bind hmore)

theorem lastMember (seen : Members Json) (hblanks : Blanks blanks) :
    Reads (readMembers (n + 1) depth first seen) (blanks ++ '\x7d' :: rest) (.object seen) rest :=
  bind (token hblanks (by decide) (pure false _)) (skip (pure _ rest))

theorem array (hblanks : Blanks blanks)
    (h : Reads (readItems n (depth + 1) true []) before j after) :
    Reads (readValue (n + 1) (depth + 2)) (blanks ++ '[' :: before) j after :=
  token hblanks (by decide) ((pure (depth + 1) _).bind (skip h))

theorem object (hblanks : Blanks blanks)
    (h : Reads (readMembers n (depth + 1) true []) before j after) :
    Reads (readValue (n + 1) (depth + 2)) (blanks ++ '\x7b' :: before) j after :=
  token hblanks (by decide) ((pure (depth + 1) _).bind (skip h))

end Parts

/-! ## Whole values -/

mutual

theorem value (style : Style) (j : Json) {level n depth : Nat} {blanks rest : List Char}
    (hj : j.Exact) (hdepth : j.nesting < depth) (hn : (j.write style level).length ≤ n)
    (hblanks : Blanks blanks) (hrest : EndsNumber rest) :
    Reads (readValue n depth) (blanks ++ (j.write style level ++ rest)) j rest := by
  have hpos := length_write_pos style level hj
  rcases n with - | n
  · omega
  match j, hj with
  | .null, _ => exact null hblanks
  | .bool b, _ => exact bool b level style hblanks
  | .number (.whole k), hj => exact whole hj hblanks hrest
  | .string s, _ => exact quotedValue s hblanks
  | .array xs, hj =>
    obtain ⟨depth, rfl⟩ : ∃ d, depth = d + 2 := ⟨depth - 2, by rw [nesting] at hdepth; omega⟩
    match xs, hj with
    | [], _ =>
      rcases n with - | n
      · simp [write] at hn
      exact array hblanks (lastItem [] .nil)
    | x :: xs, ⟨hx, hxs⟩ =>
      have hx' := length_write_pos style (level + 1) hx
      have hxs' := length_writeItems_pos style level xs
      simp only [write, List.length_cons, List.length_append] at hn
      simp only [nesting, nestingItems] at hdepth
      rcases n with - | n
      · omega
      simp only [write, List.cons_append, List.append_assoc]
      exact array hblanks (item (firstItem hx (.newline style _))
        (value style x hx (by omega) (by omega) .nil
          (endsNumber_writeItems style level xs rest))
        (items style xs [x] hxs (by omega) (by omega)))
  | .object ms, hj =>
    obtain ⟨depth, rfl⟩ : ∃ d, depth = d + 2 := ⟨depth - 2, by rw [nesting] at hdepth; omega⟩
    match ms, hj with
    | [], _ =>
      rcases n with - | n
      · simp [write] at hn
      exact object hblanks (lastMember [] .nil)
    | (k, x) :: ms, ⟨hnames, hx, hms⟩ =>
      have hx' := length_write_pos style (level + 1) hx
      have hms' := length_writeMembers_pos style level ms
      simp only [write, List.length_cons, List.length_append] at hn
      simp only [nesting, nestingMembers] at hdepth
      rcases n with - | n
      · omega
      simp only [write, List.cons_append, List.append_assoc]
      exact object hblanks (member (firstMember k (.newline style _))
        (fun _ hb => value style x hx (by omega) (by omega) hb
          (endsNumber_writeMembers style level ms rest))
        (members style ms [(k, x)] hms hnames (by omega) (by omega)))

theorem items (style : Style) (xs seen : List Json) {level n depth : Nat} {rest : List Char}
    (hxs : ExactItems xs) (hdepth : nestingItems xs < depth)
    (hn : (writeItems style level xs).length ≤ n) :
    Reads (readItems n depth false seen) (writeItems style level xs ++ rest)
      (.array (seen.reverse ++ xs)) rest := by
  match xs, hxs with
  | [], _ =>
    simp only [writeItems, List.length_append, List.length_singleton] at hn
    rcases n with - | n
    · omega
    rw [writeItems, List.append_assoc, List.append_nil]
    exact lastItem seen (.newline style _)
  | x :: xs, ⟨hx, hxs⟩ =>
    have hx' := length_write_pos style (level + 1) hx
    simp only [writeItems, List.length_cons, List.length_append] at hn
    rw [nestingItems] at hdepth
    rcases n with - | n
    · omega
    have hmore : Reads (readItems n depth false (x :: seen)) (writeItems style level xs ++ rest)
        (.array ((x :: seen).reverse ++ xs)) rest :=
      items style xs (x :: seen) hxs (by omega) (by omega)
    rw [List.reverse_cons, List.append_assoc, List.singleton_append] at hmore
    simp only [writeItems, List.cons_append, List.append_assoc]
    exact item (nextItem hx (.newline style _))
      (value style x hx (by omega) (by omega) .nil
        (endsNumber_writeItems style level xs rest)) hmore

theorem members (style : Style) (ms seen : List (String × Json)) {level n depth : Nat}
    {rest : List Char} (hms : ExactMembers ms) (hnames : (Members.names (seen ++ ms)).Nodup)
    (hdepth : nestingMembers ms < depth) (hn : (writeMembers style level ms).length ≤ n) :
    Reads (readMembers n depth false seen) (writeMembers style level ms ++ rest)
      (.object (seen ++ ms)) rest := by
  match ms, hms with
  | [], _ =>
    simp only [writeMembers, List.length_append, List.length_singleton] at hn
    rcases n with - | n
    · omega
    rw [writeMembers, List.append_assoc, List.append_nil]
    exact lastMember seen (.newline style _)
  | (k, x) :: ms, ⟨hx, hms⟩ =>
    have hx' := length_write_pos style (level + 1) hx
    simp only [writeMembers, List.length_cons, List.length_append] at hn
    rw [nestingMembers] at hdepth
    rcases n with - | n
    · omega
    -- The key was not seen before, so the value is put at the end.
    have hk : k ∉ Members.names seen := by
      rw [Members.names_append] at hnames
      intro hmem
      exact (List.nodup_append.mp hnames).2.2 k hmem k List.mem_cons_self rfl
    have hmore : Reads (readMembers n depth false (Members.put seen k x))
        (writeMembers style level ms ++ rest) (.object (seen ++ (k, x) :: ms)) rest := by
      rw [List.append_cons] at hnames ⊢
      rw [Members.put_of_not_mem x hk]
      exact members style ms _ hms hnames (by omega) (by omega)
    simp only [writeMembers, List.cons_append, List.append_assoc]
    exact member (nextMember k (.newline style _))
      (fun _ hb => value style x hx (by omega) (by omega) hb
        (endsNumber_writeMembers style level ms rest)) hmore

end

theorem ending : Reads readEnd [] () [] := (peekToken []).bind (pure () [])

end Reads

/-- **Read back.** The text of an exact value is read as that value. -/
theorem parse_text (style : Style) {j : Json} (hj : j.Exact) (hdepth : j.nesting < nestingLimit) :
    parse (j.text style) = .ok j := by
  have hread : Reads (do let j ← readValue (steps (j.write style 0).length) nestingLimit
                         readEnd
                         pure j) (j.write style 0) j [] := by
    have hvalue : Reads (readValue (steps (j.write style 0).length) nestingLimit)
        ([] ++ (j.write style 0 ++ [])) j [] :=
      Reads.value style j hj hdepth (by unfold steps; omega) .nil .nil
    rw [List.nil_append, List.append_nil] at hvalue
    exact hvalue.bind (Reads.ending.bind (Reads.pure j []))
  obtain ⟨c, hc, -⟩ := hread (Cursor.start (j.write style 0)) rfl
  rw [parse, text, String.toList_ofList]
  exact congrArg (Except.map Prod.fst) hc

end GraphShape.Json
