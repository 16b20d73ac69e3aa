import GraphShape.Json.Reader
import Mathlib.Tactic.SplitIfs

/-!
# Reading written tokens

A word, a string and a whole number are read back from what the writer makes of them. The key fact
is that what a reader gives depends on the text that is left and never on the line or the column,
so a read relates the text before it, a value and the text after it.
-/

namespace GraphShape.Json

open Reader

/-- Wherever the text before stands, the reader gives the value and leaves the text after. -/
def Reads {α : Type} (r : Reader α) (before : List Char) (a : α) (after : List Char) : Prop :=
  ∀ c : Cursor, c.rest = before → ∃ c', r c = .ok (a, c') ∧ c'.rest = after

/-- Nothing but blanks. -/
def Blanks (text : List Char) : Prop := ∀ ch ∈ text, isBlank ch = true

theorem Blanks.nil : Blanks [] := fun _ h => by simp at h

theorem Blanks.space : Blanks [' '] := by simp [Blanks, isBlank]

theorem Blanks.newline (style : Style) (level : Nat) : Blanks (style.newline level) := by
  intro ch h
  cases style with
  | compact => simp [Style.newline] at h
  | pretty =>
    rcases List.mem_cons.mp h with rfl | h
    · decide
    · rw [List.eq_of_mem_replicate h]
      decide

theorem Cursor.rest_advance (c : Cursor) : c.advance.rest = c.rest.tail := by
  unfold Cursor.advance
  split <;> simp [*]

theorem rest_skipBlanks (n : Nat) (c : Cursor) (h : c.rest.length ≤ n) :
    (skipBlanks n c).rest = c.rest.dropWhile isBlank := by
  induction n generalizing c with
  | zero => simp_all [skipBlanks]
  | succ n ih =>
    rw [skipBlanks]
    split
    · next ch rest hrest =>
      by_cases hch : isBlank ch
      · rw [if_pos hch, ih _ (by rw [c.rest_advance]; simp_all), c.rest_advance, hrest]
        simp [hch]
      · simp [hch, hrest]
    · next hrest => simp [hrest]

namespace Reads

variable {α β : Type} {b : β} {before between after rest : List Char} {ch : Char}

theorem pure (a : α) (rest : List Char) : Reads (Pure.pure a) rest a rest :=
  fun c h => ⟨c, rfl, h⟩

theorem bind {r : Reader α} {f : α → Reader β} {a : α} (hr : Reads r before a between)
    (hf : Reads (f a) between b after) : Reads (r >>= f) before b after := by
  intro c hc
  obtain ⟨c₁, hr, h₁⟩ := hr c hc
  obtain ⟨c₂, hf, h₂⟩ := hf c₁ h₁
  refine ⟨c₂, ?_, h₂⟩
  rw [← hf]
  exact congrArg (fun x : Except ReadError (α × Cursor) => x.bind fun p => f p.1 p.2) hr

theorem peek {f : Option Char → Reader β} (h : Reads (f before.head?) before b after) :
    Reads (Reader.peek >>= f) before b after :=
  bind (fun c hc => ⟨c, by rw [← hc]; rfl, hc⟩) h

theorem skip {f : Unit → Reader β} (h : Reads (f ()) rest b after) :
    Reads (Reader.skip >>= f) (ch :: rest) b after :=
  bind (fun c hc => ⟨c.advance, rfl, by rw [c.rest_advance, hc, List.tail_cons]⟩) h

theorem skip_last (ch : Char) (rest : List Char) : Reads Reader.skip (ch :: rest) () rest :=
  fun c hc => ⟨c.advance, rfl, by rw [c.rest_advance, hc, List.tail_cons]⟩

theorem peekToken (before : List Char) :
    Reads Json.peekToken before (before.dropWhile isBlank).head? (before.dropWhile isBlank) := by
  rintro c rfl
  refine ⟨skipBlanks c.rest.length c, ?_, rest_skipBlanks _ c (Nat.le_refl _)⟩
  rw [← rest_skipBlanks _ c (Nat.le_refl _)]
  rfl

theorem token {f : Option Char → Reader β} {blanks : List Char} (hblanks : Blanks blanks)
    (hch : isBlank ch = false) (h : Reads (f (some ch)) (ch :: rest) b after) :
    Reads (Json.peekToken >>= f) (blanks ++ ch :: rest) b after := by
  have hdrop : (blanks ++ ch :: rest).dropWhile isBlank = ch :: rest := by
    rw [List.dropWhile_append_of_pos hblanks, List.dropWhile_cons_of_neg (by simp [hch])]
  have htoken := peekToken (blanks ++ ch :: rest)
  rw [hdrop] at htoken
  exact htoken.bind h

theorem letters (word rest : List Char) : Reads (readLetters word) (word ++ rest) () rest := by
  induction word with
  | nil => exact pure () rest
  | cons ch word ih =>
    refine peek ?_
    simp only [List.cons_append, List.head?_cons, if_true]
    exact skip ih

/-! ## Strings -/

theorem hexValues?_escape : ∀ n < 32,
    hexValues? ['0', '0', hexDigit (n / 16), hexDigit (n % 16)] = some n := by decide

theorem le_bytesLeft (c : Cursor) : c.rest.length ≤ c.bytesLeft := by
  unfold Cursor.bytesLeft
  induction c.rest with
  | nil => simp
  | cons ch rest ih =>
    have := ch.utf8Size_pos
    simp only [List.length_cons, List.foldr_cons]
    omega

theorem hex {w x y z : Char} {n : Nat} (h : hexValues? [w, x, y, z] = some n) :
    Reads readHex (w :: x :: y :: z :: rest) n rest := by
  intro c hc
  have hlen := le_bytesLeft c
  rw [hc] at hlen
  simp only [List.length_cons] at hlen
  refine ⟨c.advance.advance.advance.advance, ?_, by simp [Cursor.rest_advance, hc]⟩
  rw [readHex, if_neg (by omega), hc, List.take_succ_cons, List.take_succ_cons,
    List.take_succ_cons, List.take_succ_cons, List.take_zero, h]

theorem unicodeEscape (h : ch.toNat < 32) :
    Reads readUnicodeEscape ('0' :: '0' :: hexDigit (ch.toNat / 16) :: hexDigit (ch.toNat % 16) ::
      rest) ch rest := by
  refine bind (hex (hexValues?_escape _ h)) ?_
  rw [if_neg (by omega), if_pos (by omega), Char.ofNat_toNat]
  exact pure ch rest

theorem escapeChar_cases (ch : Char) :
    (escapeChar ch = [ch] ∧ ch ≠ '"' ∧ ch ≠ '\\' ∧ ¬ ch.toNat < 32) ∨
      ∃ escape, escapeChar ch = '\\' :: escape ∧
        ∀ rest, Reads readEscape (escape ++ rest) ch rest := by
  unfold escapeChar
  split_ifs with h1 h2 h3 h4 h5 h6 h7 h8
  · exact .inr ⟨_, rfl, fun rest => peek (skip (h1 ▸ pure _ rest))⟩
  · exact .inr ⟨_, rfl, fun rest => peek (skip (h2 ▸ pure _ rest))⟩
  · exact .inr ⟨_, rfl, fun rest => peek (skip (h3 ▸ pure _ rest))⟩
  · exact .inr ⟨_, rfl, fun rest => peek (skip (h4 ▸ pure _ rest))⟩
  · exact .inr ⟨_, rfl, fun rest => peek (skip (h5 ▸ pure _ rest))⟩
  · have hch : ch = Char.ofNat 8 := by rw [← h6, Char.ofNat_toNat]
    exact .inr ⟨_, rfl, fun rest => peek (skip (hch ▸ pure _ rest))⟩
  · have hch : ch = Char.ofNat 12 := by rw [← h7, Char.ofNat_toNat]
    exact .inr ⟨_, rfl, fun rest => peek (skip (hch ▸ pure _ rest))⟩
  · exact .inr ⟨_, rfl, fun rest => peek (skip (unicodeEscape h8))⟩
  · exact .inl ⟨rfl, h1, h2, h8⟩

theorem escapeChar_ne_nil (ch : Char) : escapeChar ch ≠ [] := by
  rcases escapeChar_cases ch with ⟨h, -⟩ | ⟨_, h, -⟩ <;> simp [h]

theorem chars (cs rest seen : List Char) (n : Nat) (h : cs.length < n) :
    Reads (readChars n seen) (cs.flatMap escapeChar ++ '"' :: rest)
      (String.ofList (seen.reverse ++ cs)) rest := by
  induction cs generalizing n seen with
  | nil =>
    obtain ⟨n, rfl⟩ := Nat.exists_eq_add_of_lt h
    rw [List.append_nil]
    exact peek (skip (pure _ rest))
  | cons ch cs ih =>
    obtain ⟨n, rfl⟩ : ∃ m, n = m + 1 := ⟨n - 1, by simp at h; omega⟩
    have hmore := ih (ch :: seen) n (by simpa using h)
    rw [List.reverse_cons, List.append_assoc, List.singleton_append] at hmore
    rw [List.flatMap_cons, List.append_assoc]
    rcases escapeChar_cases ch with ⟨hself, hquote, hslash, hcontrol⟩ | ⟨escape, hself, hread⟩
    · rw [hself]
      refine peek ?_
      simp only [List.singleton_append, List.head?_cons, hcontrol, if_false]
      exact skip hmore
    · rw [hself]
      exact peek (skip (bind (hread _) hmore))

theorem length_le_flatMap_escapeChar (cs : List Char) :
    cs.length ≤ (cs.flatMap escapeChar).length := by
  induction cs with
  | nil => simp
  | cons ch cs ih =>
    have := List.length_pos_iff.mpr (escapeChar_ne_nil ch)
    simp only [List.flatMap_cons, List.length_append, List.length_cons]
    omega

theorem string (s : String) (rest : List Char) : Reads readQuoted (quoted s ++ rest) s rest := by
  have hlen := length_le_flatMap_escapeChar s.toList
  have hchars := chars s.toList rest []
    ((s.toList.flatMap escapeChar ++ '"' :: rest).length + 1)
    (by rw [List.length_append, List.length_cons]; omega)
  rw [List.reverse_nil, List.nil_append, String.ofList_toList] at hchars
  rw [quoted, List.cons_append, List.append_assoc, List.singleton_append]
  refine skip fun c hc => ?_
  rw [← hc] at hchars
  exact hchars c rfl

/-! ## Numbers -/

theorem peekDigits (before : List Char) :
    Reads Json.peekDigits before (before.takeWhile isDigit) before := by
  rintro c rfl
  exact ⟨c, rfl, rfl⟩

theorem skipMany (skipped rest : List Char) :
    Reads (Json.skipMany skipped.length) (skipped ++ rest) () rest := by
  induction skipped with
  | nil => exact pure () rest
  | cons ch skipped ih => exact skip ih

end Reads

theorem isDigit_of_mem_toDigits {n : Nat} {ch : Char} (h : ch ∈ Nat.toDigits 10 n) :
    isDigit ch = true := by
  have := Nat.isDigit_of_mem_toDigits (by decide) (by decide) h
  simpa [isDigit, Char.isDigit, Char.le_def] using this

theorem toDigits_eq_cons (n : Nat) : ∃ d ds, Nat.toDigits 10 n = d :: ds ∧ isDigit d = true := by
  obtain ⟨d, ds, h⟩ := List.exists_cons_of_ne_nil (Nat.toDigits_ne_nil (b := 10) (n := n))
  exact ⟨d, ds, h, isDigit_of_mem_toDigits (h ▸ List.mem_cons_self)⟩

theorem head_toDigits (n : Nat) (h : n ≠ 0) : (Nat.toDigits 10 n).head? ≠ some '0' := by
  induction n using Nat.strongRecOn with
  | _ n ih =>
    by_cases hn : n < 10
    · have hdigit : ∀ k < 10, k ≠ 0 → [Nat.digitChar k].head? ≠ some '0' := by decide
      rw [Nat.toDigits_of_lt_base hn]
      exact hdigit n hn h
    · rw [Nat.toDigits_of_base_le (by decide) (by omega), List.head?_append,
        Option.or_of_isSome (by simp [Nat.toDigits_ne_nil])]
      exact ih (n / 10) (by omega) (by omega)

theorem ofDigitChars_cons (ch : Char) (ds : List Char) (start : Nat) :
    Nat.ofDigitChars 10 (ch :: ds) start = Nat.ofDigitChars 10 ds (10 * start + digitValue ch) :=
  Nat.ofDigitChars_cons ..

theorem le_ofDigitChars (ds : List Char) (start : Nat) : start ≤ Nat.ofDigitChars 10 ds start := by
  induction ds generalizing start with
  | nil => exact Nat.le_refl start
  | cons ch ds ih =>
    have := ih (10 * start + digitValue ch)
    rw [ofDigitChars_cons]
    omega

theorem gatherDigits_eq (ds : List Char) (start : Nat) (h : Nat.ofDigitChars 10 ds start ≤ maxWhole) :
    gatherDigits start ds = (Nat.ofDigitChars 10 ds start, []) := by
  induction ds generalizing start with
  | nil => rfl
  | cons ch ds ih =>
    rw [ofDigitChars_cons] at h ⊢
    rw [gatherDigits, if_pos (Nat.le_trans (le_ofDigitChars ds _) h), ih _ h]

/-- What follows does not belong to a whole number. -/
def EndsNumber (rest : List Char) : Prop :=
  ∀ ch ∈ rest.head?, isDigit ch = false ∧ ch ≠ '.' ∧ ch ≠ 'e' ∧ ch ≠ 'E'

theorem EndsNumber.nil : EndsNumber [] := fun _ h => by simp at h

theorem EndsNumber.takeWhile {rest : List Char} (h : EndsNumber rest) :
    rest.takeWhile isDigit = [] := by
  cases rest with
  | nil => rfl
  | cons ch rest => simp [(h ch rfl).1]

namespace Reads

variable {rest : List Char} {negative : Bool} {n : Nat} {m : Number}

theorem afterWhole (hrest : EndsNumber rest) (hm : wholeNumber negative n = some m) :
    Reads (readAfterWhole negative n) rest m rest := by
  refine peek ?_
  cases rest with
  | nil =>
    simp only [List.head?_nil, hm]
    exact pure m []
  | cons ch rest =>
    obtain ⟨-, hpoint, he, hE⟩ := hrest ch rfl
    simpa [hpoint, he, hE, hm] using pure m (ch :: rest)

theorem number (hrest : EndsNumber rest) (hn : n ≤ maxWhole) (hm : wholeNumber negative n = some m) :
    Reads (readNumber negative) (Nat.toDigits 10 n ++ rest) m rest := by
  obtain ⟨d, ds, hdigits, hd⟩ := toDigits_eq_cons n
  refine peek ?_
  by_cases hzero : n = 0
  · subst hzero
    rw [Nat.toDigits_zero, List.singleton_append]
    refine skip (peek ?_)
    have hafter := afterWhole hrest hm
    cases rest with
    | nil => exact hafter
    | cons ch rest =>
      simp only [List.head?_cons, (hrest ch rfl).1]
      exact hafter
  · have hhead : d ≠ '0' := fun h => head_toDigits n hzero (by rw [hdigits, h, List.head?_cons])
    have hvalue := Nat.ofDigitChars_ten_toDigits (n := n)
    have hall : ∀ ch ∈ d :: ds, isDigit ch = true := fun ch hch =>
      isDigit_of_mem_toDigits (hdigits ▸ hch)
    rw [hdigits] at hvalue ⊢
    have htake : (d :: ds ++ rest).takeWhile isDigit = d :: ds := by
      rw [List.takeWhile_append_of_pos hall, hrest.takeWhile, List.append_nil]
    have hpeek := peekDigits (d :: ds ++ rest)
    rw [htake] at hpeek
    simp only [List.cons_append, List.head?_cons, hd, if_true]
    refine hpeek.bind ?_
    rw [gatherDigits_eq _ _ (by rwa [hvalue]), hvalue]
    exact (skipMany (d :: ds) rest).bind (afterWhole hrest hm)

end Reads

end GraphShape.Json
