import GraphShape.Proofs.DocumentNames
import GraphShape.Proofs.Outputs
import GraphShape.Proofs.Roots
import Mathlib.Data.List.TakeWhile

/-!
# The root type in the environment

A listed name can be given back in a variable. The key fact is that a GraphQL name is bare text of
the notation for values: no character of it has a meaning there, it is no number, and only two names
are something else as a whole, the truth values. The other settings are read as before, so the run
is that of the configuration with another root.
-/

namespace GraphShape

namespace SettingTree

/-! ## Names as values -/

theorem dropWhile_eq_self {α : Type} {p : α → Bool} {xs : List α} (h : ∀ x ∈ xs, p x = false) :
    xs.dropWhile p = xs :=
  List.dropWhile_eq_self_iff.mpr fun hpos => by simp [h _ (List.getElem_mem hpos)]

section Characters

variable {ch : Char} (h : Sdl.Token.isNameChar ch = true)

include h

theorem ne_of_nameChar {other : Char} (hother : Sdl.Token.isNameChar other = false) :
    ch ≠ other := by
  rintro rfl
  rw [h] at hother
  cases hother

theorem isPlainBlank_nameChar : Text.isPlainBlank ch = false := by
  have hrange := nameChar_range h
  simp only [Text.isPlainBlank, Bool.or_eq_false_iff, decide_eq_false_iff_not]
  refine ⟨⟨⟨⟨?_, ?_⟩, ?_⟩, ?_⟩, by omega⟩
  all_goals exact ne_of_nameChar h (by decide)

theorem isBlank_nameChar : Text.isBlank ch = false := by
  have hrange := nameChar_range h
  simp only [Text.isBlank, Bool.or_eq_false_iff, Bool.and_eq_false_iff, decide_eq_false_iff_not,
    beq_eq_false_iff_ne]
  omega

theorem isSeparator_nameChar : isSeparator ch = false := by
  simp only [isSeparator, Bool.or_eq_false_iff, decide_eq_false_iff_not]
  refine ⟨⟨⟨⟨?_, ?_⟩, ?_⟩, ?_⟩, ?_⟩
  all_goals exact ne_of_nameChar h (by decide)

end Characters

theorem digit?_nameStart {ch : Char} (h : Sdl.Token.isNameStart ch = true) :
    Text.digit? 10 ch = none := by
  have hle : ∀ a b : Char, a ≤ b ↔ a.toNat ≤ b.toNat := fun a b => by
    rw [Char.le_def]; exact UInt32.le_iff_toNat_le
  have hrange : ch.toNat = 95 ∨ (97 ≤ ch.toNat ∧ ch.toNat ≤ 122) ∨
      (65 ≤ ch.toNat ∧ ch.toNat ≤ 90) := by
    simp only [Sdl.Token.isNameStart, Bool.or_eq_true, Bool.and_eq_true, decide_eq_true_eq, hle]
      at h
    rcases h with (rfl | h) | h
    · exact Or.inl rfl
    · exact Or.inr (Or.inl h)
    · exact Or.inr (Or.inr h)
  have hdecimal : ¬ ('0' ≤ ch ∧ ch ≤ '9') := by
    simp only [hle, Char.reduceToNat]
    omega
  -- The letters that are digits elsewhere stand for ten and more.
  simp only [Text.digit?, if_neg hdecimal]
  split_ifs with hsmall hcapital
  · simp only [hle, Char.reduceToNat] at hsmall
    simp [Option.filter]
    omega
  · simp only [hle, Char.reduceToNat] at hcapital
    simp [Option.filter]
    omega
  · rfl

section Names

variable {name : String} {text : List Char}

/-- The characters of a GraphQL name. -/
structure NameText (text : List Char) : Prop where
  first : ∃ ch rest, text = ch :: rest ∧ Sdl.Token.isNameStart ch = true
  chars : ∀ ch ∈ text, Sdl.Token.isNameChar ch = true

theorem nameText (h : isGraphQLName name = true) : NameText name.toList := by
  unfold isGraphQLName at h
  split at h
  · cases h
  · rename_i first rest hname
    rw [Bool.and_eq_true, List.all_eq_true] at h
    rw [hname]
    exact ⟨⟨first, rest, rfl, h.1⟩, List.forall_mem_cons.mpr ⟨isNameChar_of_start h.1, h.2⟩⟩

theorem skipBlanks_nameChars (h : ∀ ch ∈ text, Sdl.Token.isNameChar ch = true) :
    skipBlanks text = text := dropWhile_eq_self fun ch hch => isPlainBlank_nameChar (h ch hch)

theorem trim_nameChars (h : ∀ ch ∈ text, Sdl.Token.isNameChar ch = true) :
    Text.trim text = text := by
  have hblank : ∀ ch ∈ text, Text.isBlank ch = false := fun ch hch => isBlank_nameChar (h ch hch)
  rw [Text.trim, dropWhile_eq_self hblank,
    dropWhile_eq_self fun ch hch => hblank ch (List.mem_reverse.mp hch), List.reverse_reverse]

theorem ofBare_name (h : NameText text) : ofBare text = string (String.ofList text) := by
  obtain ⟨⟨ch, rest, rfl, hstart⟩, hchars⟩ := h
  have hpoint : (ch :: rest).contains '.' = false := by
    rw [List.contains_eq_mem, decide_eq_false_iff_not]
    exact fun hmem => absurd (hchars '.' hmem) (by decide)
  have hnatural : Text.natural? 10 (ch :: rest) = none := by
    simp only [Text.natural?, Text.digits?, digit?_nameStart hstart]
  have hunsigned : ∀ limit, Text.unsigned? 10 limit (ch :: rest) = none := by
    intro limit
    unfold Text.unsigned?
    split
    · rename_i more heq
      cases heq
      exact absurd hstart (by decide)
    · rw [hnatural]
      rfl
  have hsigned : ∀ limit, Text.signed? 10 limit (ch :: rest) = none := by
    intro limit
    unfold Text.signed?
    split
    · rename_i more heq
      cases heq
      exact absurd hstart (by decide)
    · rw [hunsigned]
      rfl
  simp only [ofBare, trim_nameChars hchars, hpoint, Bool.false_eq_true, if_false, hunsigned,
    hsigned]

theorem after?_eq {word : String} {rest : List Char} (h : after? word text = some rest) :
    text = word.toList ++ rest := by
  unfold after? at h
  split_ifs at h with hprefix
  cases h
  obtain ⟨rest, rfl⟩ := List.isPrefixOf_iff_prefix.mp hprefix
  rw [← String.length_toList, List.drop_left]

theorem readNotation_true {more : List Char} (hblank : skipBlanks text = text)
    (htrue : after? "true" text = some more) (n : Nat) :
    readNotation (n + 1) text = some (bool true, skipBlanks more) := by
  rw [readNotation]
  simp only [hblank, htrue]
  rfl

theorem readNotation_false {more : List Char} (hblank : skipBlanks text = text)
    (htrue : after? "true" text = none) (hfalse : after? "false" text = some more) (n : Nat) :
    readNotation (n + 1) text = some (bool false, skipBlanks more) := by
  rw [readNotation]
  simp only [hblank, htrue, hfalse]
  rfl

theorem readNotation_name (h : NameText name.toList) (htrue : after? "true" name.toList = none)
    (hfalse : after? "false" name.toList = none) (n : Nat) :
    readNotation (n + 1) name.toList = some (string name, []) := by
  have hinside : ∀ c ∈ name.toList, (!isSeparator c) = true := by
    intro c hc
    rw [isSeparator_nameChar (h.chars c hc), Bool.not_false]
  -- No character of a name opens a table, an array or a quoted text.
  have hopen : ∀ c more, name.toList = c :: more → Sdl.Token.isNameChar c = true :=
    fun c more heq => h.chars c (heq ▸ List.mem_cons_self)
  rw [readNotation]
  simp only [skipBlanks_nameChars h.chars, htrue, hfalse]
  split
  · rename_i heq
    exact absurd (hopen _ _ heq) (by decide)
  · rename_i heq
    exact absurd (hopen _ _ heq) (by decide)
  · rename_i heq
    exact absurd (hopen _ _ heq) (by decide)
  · rename_i heq
    exact absurd (hopen _ _ heq) (by decide)
  · rename_i heq
    exact absurd (hopen _ _ heq) (by decide)
  · rw [List.takeWhile_eq_self_iff.mpr hinside, List.dropWhile_eq_nil_iff.mpr hinside,
      ofBare_name h, String.ofList_toList]
    rfl

/-- A name that is no truth value is text as it stands. -/
theorem ofVariable_name (h : isGraphQLName name = true) (htrue : name ≠ "true")
    (hfalse : name ≠ "false") : ofVariable name = string name := by
  have hname := nameText h
  have hblank := skipBlanks_nameChars hname.chars
  -- A truth value in front of more characters does not reach the end.
  have hword : ∀ word : String, word ≠ name → ∀ more, after? word name.toList = some more →
      skipBlanks more ≠ [] := by
    intro word hne more hmore
    have happend := after?_eq hmore
    rw [skipBlanks_nameChars fun c hc => hname.chars c (happend ▸ List.mem_append_right _ hc)]
    rintro rfl
    rw [List.append_nil] at happend
    exact hne (String.toList_injective happend).symm
  cases htrue' : after? "true" name.toList with
  | some more =>
    rw [ofVariable, readNotation_true hblank htrue']
    cases hmore : skipBlanks more with
    | nil => exact absurd hmore (hword _ htrue.symm _ htrue')
    | cons c more => rfl
  | none =>
    cases hfalse' : after? "false" name.toList with
    | some more =>
      rw [ofVariable, readNotation_false hblank htrue' hfalse']
      cases hmore : skipBlanks more with
      | nil => exact absurd hmore (hword _ hfalse.symm _ hfalse')
      | cons c more => rfl
    | none => rw [ofVariable, readNotation_name hname htrue' hfalse']

end Names

/-! ## The variable among the others -/

/-- The variable of the root type. -/
def rootVariable : String := "GRAPHQL_JSON_SCHEMA_ROOT_TYPE"

theorem pathOf?_rootVariable : pathOf? rootVariable = some ["root_type"] := by decide +kernel

/-- No other variable stands for the root type or for something in it. -/
def OnlyRoot (environment : Environment) : Prop :=
  (Members.names environment).Nodup ∧ ∀ v ∈ environment, v.1 ≠ rootVariable →
    ∀ path, pathOf? v.1 = some path → path.head? ≠ some "root_type"

section Variables

variable {environment : Environment} {name : String} {tree other : SettingTree}

theorem under?_join_congr {first : SettingTree} (hfirst : first.IsTable)
    (h : tree.under? [name] = other.under? [name]) :
    (first.join tree).under? [name] = (first.join other).under? [name] := by
  cases hname : first.under? [name] with
  | some value => rw [under?_join_of_some hname, under?_join_of_some hname, h]
  | none =>
    have hfree := Slot.not_blocks_single hfirst name
    rw [under?_join_of_none hname hfree, under?_join_of_none hname hfree, h]

theorem under?_join_congr_left {second : SettingTree} (htree : tree.IsTable)
    (hother : other.IsTable) (h : tree.under? [name] = other.under? [name]) :
    (tree.join second).under? [name] = (other.join second).under? [name] := by
  cases hname : other.under? [name] with
  | some value => rw [under?_join_of_some hname, under?_join_of_some (h.trans hname)]
  | none =>
    rw [under?_join_of_none hname (Slot.not_blocks_single hother name),
      under?_join_of_none (h.trans hname) (Slot.not_blocks_single htree name)]

theorem under?_record_congr (h : tree.under? [name] = other.under? [name]) (v : String × String) :
    (tree.record v.1 v.2).under? [name] = (other.record v.1 v.2).under? [name] := by
  rw [record, record]
  cases hpath : pathOf? v.1 with
  | none => exact h
  | some path =>
    obtain ⟨first, rest, rfl⟩ := List.exists_cons_of_ne_nil (pathOf?_ne_nil hpath)
    exact under?_join_congr trivial h

theorem under?_foldl_congr (environment : Environment)
    (h : tree.under? [name] = other.under? [name]) :
    (environment.foldl (fun tree v => tree.record v.1 v.2) tree).under? [name] =
      (environment.foldl (fun tree v => tree.record v.1 v.2) other).under? [name] := by
  induction environment generalizing tree other with
  | nil => exact h
  | cons v rest ih => exact ih (under?_record_congr h v)

theorem apart_of_head? {path : List String} (hne : path ≠ []) (h : path.head? ≠ some name) :
    Apart path [name] := by
  obtain ⟨first, rest, rfl⟩ := List.exists_cons_of_ne_nil hne
  have hfirst : first ≠ name := fun heq => h (congrArg some heq)
  constructor
  · intro hprefix
    exact hfirst (List.cons_prefix_cons.mp hprefix).1
  · intro hprefix
    exact hfirst (List.cons_prefix_cons.mp hprefix).1.symm

theorem under?_record_root (hname : name ≠ "root_type") (text : String) :
    (tree.record rootVariable text).under? [name] = tree.under? [name] := by
  have happart : Apart ["root_type"] [name] := apart_of_head? (by simp) (by simpa using hname.symm)
  have hnest := nest_free_of_apart happart (ofVariable text)
  rw [record, pathOf?_rootVariable]
  exact under?_join_of_none hnest.1 hnest.2

theorem under?_put_other (hname : name ≠ "root_type") (text : String) :
    (ofEnvironment (Members.put environment rootVariable text)).under? [name] =
      (ofEnvironment environment).under? [name] := by
  rw [ofEnvironment_eq, ofEnvironment_eq]
  generalize table [] = tree
  induction environment generalizing tree with
  | nil =>
    rw [Members.put, List.foldl_cons, List.foldl_nil, List.foldl_nil, under?_record_root hname]
  | cons v rest ih =>
    obtain ⟨label, old⟩ := v
    rw [Members.put]
    split
    · rename_i hlabel
      subst hlabel
      rw [List.foldl_cons, List.foldl_cons]
      apply under?_foldl_congr
      rw [under?_record_root hname, under?_record_root hname]
    · exact ih _

theorem under?_put_root (h : OnlyRoot environment) {text : String}
    (hvalue : ¬ (ofVariable text).IsTable) :
    (ofEnvironment (Members.put environment rootVariable text)).under? ["root_type"] =
      some (ofVariable text) := by
  have hrecord : ∀ tree : SettingTree,
      (tree.record rootVariable text).under? ["root_type"] = some (ofVariable text) := by
    intro tree
    rw [record, pathOf?_rootVariable]
    have hnest : (nest ["root_type"] (ofVariable text)).under? ["root_type"] =
        some (ofVariable text) := under?_nest _ _
    rw [under?_join_of_some hnest, joinValue_of_not_table hvalue]
  obtain ⟨hnodup, hothers⟩ := h
  rw [ofEnvironment_eq]
  generalize table [] = tree
  induction environment generalizing tree with
  | nil => rw [Members.put, List.foldl_cons, List.foldl_nil, hrecord]
  | cons v rest ih =>
    obtain ⟨label, old⟩ := v
    rw [Members.names_cons, List.nodup_cons] at hnodup
    rw [Members.put]
    split
    · rename_i hlabel
      subst hlabel
      rw [List.foldl_cons, under?_foldl_record, hrecord]
      intro w hw q hq
      have hne : w.1 ≠ rootVariable := fun heq => hnodup.1 (heq ▸ Members.mem_names_of_mem hw)
      exact apart_of_head? (pathOf?_ne_nil hq) (hothers w (List.mem_cons_of_mem _ hw) hne q hq)
    · exact ih hnodup.2 (fun w hw => hothers w (List.mem_cons_of_mem _ hw)) _

end Variables

end SettingTree

open SettingTree

namespace Config

/-! ## The configuration with another root -/

theorem entries_split : ∃ before root schema,
    Config.entries = before ++ [.setting root, .setting schema] ∧
    (∀ e ∈ before, Entry.name e ≠ "root_type") ∧ root.name = "root_type" ∧
    schema.name ≠ "root_type" ∧
    (∀ name c, root.ofTree (string name) c = .ok { c with rootType := some name }) ∧
    (∀ tree c c' r, root.ofTree tree c = .ok c' →
      { c' with rootType := r } = { c with rootType := r }) ∧
    ∀ tree c c' r, schema.ofTree tree c = .ok c' →
      schema.ofTree tree { c with rootType := r } = .ok { c' with rootType := r } := by
  refine ⟨Config.entries.take 5, _, _, rfl, by decide, rfl, by decide, fun _ _ => rfl, ?_, ?_⟩
  · intro tree c c' r h
    obtain ⟨v, -, rfl⟩ := Setting.ofTree_ok h
    rfl
  · intro tree c c' r h
    obtain ⟨v, hv, rfl⟩ := Setting.ofTree_ok h
    rw [Setting.ofTree, hv]
    rfl

theorem given_ok {label : String} {read : SettingTree → Act} {value : Option SettingTree}
    {c c' : Config} (h : given label read value c = .ok c') :
    c' = c ∨ ∃ tree, value = some tree ∧ read tree c = .ok c' := by
  cases value with
  | none =>
    cases h
    exact Or.inl rfl
  | some tree => exact Or.inr ⟨tree, rfl, inside_ok h⟩

theorem ofTree_root {es es' : Members SettingTree} (h : (Members.names es).Nodup)
    (h' : (Members.names es').Nodup)
    (hothers : ∀ other ≠ "root_type", (table es').under? [other] = (table es).under? [other])
    {name : String} (hroot : (table es').under? ["root_type"] = some (string name)) {c : Config}
    (hc : Config.ofTree (table es) = .ok c) :
    Config.ofTree (table es') = .ok { c with rootType := some name } := by
  obtain ⟨before, root, schema, hentries, hbefore, hrootName, hschemaName, hgives, hkeeps,
    hschema⟩ := entries_split
  rw [Config.ofTree_table h, hentries, List.map_append, inTurn_append] at hc
  rw [Config.ofTree_table h', hentries, List.map_append, inTurn_append]
  have hsame : (before.map fun e => given e.name e.ofTree ((table es').under? [e.name])) =
      before.map fun e => given e.name e.ofTree ((table es).under? [e.name]) :=
    List.map_congr_left fun e he => by rw [hothers _ (hbefore e he)]
  obtain ⟨begun, hbegun, hc⟩ := ok_of_except_bind hc
  obtain ⟨rooted, hrooted, hc⟩ := ok_of_except_bind hc
  obtain ⟨whole, hwhole, hc⟩ := ok_of_except_bind hc
  cases hc
  have hbase : { rooted with rootType := some name } = { begun with rootType := some name } := by
    rcases given_ok hrooted with rfl | ⟨tree, -, htree⟩
    · rfl
    · exact hkeeps _ _ _ _ htree
  have hgiven : given root.name root.ofTree ((table es').under? [root.name]) begun =
      .ok { begun with rootType := some name } := by
    rw [hrootName, hroot, given, hgives]
    rfl
  have hlast : given schema.name schema.ofTree ((table es').under? [schema.name])
      { begun with rootType := some name } = .ok { c with rootType := some name } := by
    rw [hothers _ hschemaName, ← hbase]
    change given schema.name schema.ofTree ((table es).under? [schema.name]) rooted = .ok c
      at hwhole
    cases hvalue : (table es).under? [schema.name] with
    | none =>
      rw [hvalue] at hwhole
      cases hwhole
      rfl
    | some tree =>
      rw [hvalue] at hwhole
      rw [given, hschema _ _ _ _ (inside_ok hwhole)]
      rfl
  rw [hsame, hbegun]
  change ((given root.name root.ofTree ((table es').under? [root.name]) begun).bind fun c =>
    (given schema.name schema.ofTree ((table es').under? [schema.name]) c).bind .ok) = _
  rw [hgiven]
  change (given schema.name schema.ofTree ((table es').under? [schema.name])
    { begun with rootType := some name }).bind .ok = _
  rw [hlast]
  rfl

/-- With its variable set, a name is the root type. -/
theorem load_put_root {environment : Environment} {file : Option String} {c : Config}
    (hc : Config.load environment file = .ok c) (h : OnlyRoot environment) {name : String}
    (hname : ofVariable name = string name) :
    Config.load (Members.put environment rootVariable name) file =
      .ok { c with rootType := some name } := by
  rw [load] at hc ⊢
  cases hfile : SettingTree.ofYaml? (file.getD "") with
  | none =>
    rw [hfile] at hc
    cases hc
  | some tree =>
    rw [hfile] at hc
    have hc := ok_of_mapError hc
    obtain ⟨es, hes, htidy⟩ := exists_sources environment hfile
    obtain ⟨es', hes', htidy'⟩ := exists_sources (Members.put environment rootVariable name) hfile
    have hothers : ∀ other ≠ "root_type",
        (table es').under? [other] = (table es).under? [other] := by
      intro other hother
      rw [← hes, ← hes', sources, sources]
      exact under?_join_congr_left (isTable_ofEnvironment _) (isTable_ofEnvironment _)
        (under?_put_other hother name)
    have hroot : (table es').under? ["root_type"] = some (string name) := by
      have hvalue : ¬ (ofVariable name).IsTable := by
        rw [hname]
        exact id
      have hput := under?_put_root h hvalue
      rw [← hes', sources, under?_join_of_some hput, joinValue_of_not_table hvalue, hname]
    rw [hes] at hc
    simp only [hes']
    have hnodup := ((tidy_table_iff es).mp htidy).1
    have hnodup' := ((tidy_table_iff es').mp htidy').1
    rw [ofTree_root hnodup hnodup' hothers hroot hc]
    rfl

end Config

namespace CommandLine

/-! ## The two runs -/

variable {environment : Environment} {words words' : List String} {s : Scene} {a a' : Arguments}
  {c : Config} {name : String}

theorem readConfig_split (path : Option String) : ∃ file : Run (StateM Scene) (Option ConfigFile),
    ∀ environment, readConfig Host.ofScene environment path =
      file >>= fun file => Run.ofExcept (configFailure environment file)
        (Config.load environment (file.map ConfigFile.text)) := by
  cases path with
  | none => exact ⟨pure none, fun _ => rfl⟩
  | some path => exact ⟨readConfigFile Host.ofScene path, fun _ => rfl⟩

theorem Loads.rooted (h : Loads environment words s a c) (honly : OnlyRoot environment)
    (hname : ofVariable name = string name)
    (hwords : Request.ofArguments words' = .ok (.convert a')) (hconfig : a'.config = a.config) :
    Loads (Members.put environment rootVariable name) words' s a'
      { c with rootType := some name } := by
  obtain ⟨-, hload⟩ := h
  refine ⟨hwords, ?_⟩
  obtain ⟨read, hread⟩ := readConfig_split a.config
  rw [hread] at hload
  obtain ⟨file, hfile, hload⟩ := Run.ok_of_run_bind hload
  rw [hconfig, hread, Run.bind_of_ok (Prod.ext hfile rfl),
    Config.load_put_root (Run.ok_of_ofExcept hload) honly hname]
  rfl

theorem openLogger_rooted (environment : Environment) (name : String) (c : Config) :
    openLogger Host.ofScene (Members.put environment rootVariable name)
      { c with rootType := some name }.logging =
        openLogger Host.ofScene environment c.logging := by
  have hget : Members.get? (Members.put environment rootVariable name) directivesVariable =
      Members.get? environment directivesVariable :=
    Members.get?_put_of_ne environment name (by decide)
  simp only [openLogger, hget]

/-- The object type of a name is converted, and the document delivered. -/
def convertRoot (l : Logger) (c : Config) (types : TypeMap) (name : String) :
    Run (StateM Scene) String := do
  let scalars ← loadScalars Host.ofScene l c
  let conversion := (c.converter types scalars).convertNamed name
  Run.act (conversion.events.forM fun e => l.log Host.ofScene e.record)
  let document ← Run.ofExcept Failure.conversion conversion.outcome
  deliver Host.ofScene c document

theorem prepare_list (l : Logger) (c : Config) :
    prepare Host.ofScene l c true >>= finish Host.ofScene c =
      Run.act (l.log Host.ofScene versionRecord) >>= fun _ =>
        loadTypes Host.ofScene l c >>= fun types => pure (typeList types) := by
  simp only [prepare, if_true, bind_assoc, pure_bind, finish]

theorem prepare_root (l : Logger) (c : Config) (name : String) :
    prepare Host.ofScene l { c with rootType := some name } false >>=
        finish Host.ofScene { c with rootType := some name } =
      Run.act (l.log Host.ofScene versionRecord) >>= fun _ =>
        loadTypes Host.ofScene l c >>= fun types => convertRoot l c types name := by
  simp only [prepare, Bool.false_eq_true, if_false, bind_assoc, pure_bind, finish]
  rfl

/-- **Listed names are values of the root variable.** Only `true` and `false` are not. -/
theorem listed_names_are_root_values (h : Loads environment words s a c)
    (hlist : a.listTypes = true) (hcode : (runOn environment words s).1.code = 0)
    (honly : OnlyRoot environment) : ∃ types l s',
      TypesOf (LogPlace c s) s.files c types ∧
      runOn environment words s = conclude (.ok (typeList types), s') ∧
      ∀ name ∈ types.objectNames, name ≠ "true" → name ≠ "false" →
        ∀ words', Request.ofArguments words' = .ok (.convert { a with listTypes := false }) →
          Loads (Members.put environment rootVariable name) words' s { a with listTypes := false }
            { c with rootType := some name } ∧
          runOn (Members.put environment rootVariable name) words' s =
            conclude ((convertRoot l c types name).onScene s') := by
  obtain ⟨filter, s₁, hopen, -, -, hkept, hready⟩ :=
    openLogger_ready (fun p (hp : LogPlace c s p) => hp) environment
  have hrun := runOn_of_loads h hopen
  rw [hlist, prepare_list, Run.bind_of_ok (Run.onScene_act _ _)] at hrun
  rw [hrun] at hcode
  obtain ⟨halike, hready⟩ := Run.Quiet.log ⟨filter, _⟩ versionRecord s₁ hready
  rcases hload : (loadTypes Host.ofScene _ c).onScene _ with ⟨f | types, s'⟩
  · rw [Run.bind_of_error hload] at hcode
    exact absurd hcode (ofResult_error f)
  · rw [Run.bind_of_ok hload] at hrun
    have htypes := ((loadTypes_ok hready (congrArg Prod.fst hload)).before
      (halike.files.kept fun _ => False)).before hkept
    refine ⟨types, ⟨filter, (opened c.logging s.now s.files).1⟩, s', htypes, hrun, ?_⟩
    intro name hname htrue hfalse words' hwords
    obtain ⟨-, document, -, -, hdocument⟩ := htypes
    have hgraphQL := (TypeMap.ofDocument?_named hdocument).2 name
      ((TypeMap.objectNames_sublist types).subset hname)
    have hloads := h.rooted honly (ofVariable_name hgraphQL htrue hfalse) hwords rfl
    have hopen' := (congrFun (openLogger_rooted environment name c) s).trans hopen
    refine ⟨hloads, ?_⟩
    rw [runOn_of_loads hloads hopen', prepare_root, Run.bind_of_ok (Run.onScene_act _ _),
      Run.bind_of_ok hload]

/-! ### A type with the name of a truth value -/

def truthDocument : String := "type true { next: true } type Query { first: true }"

def schemaVariable : String × String := ("GRAPHQL_JSON_SCHEMA_SCHEMA", "s")

def truthConfig : Config := { Config.standard with schema := some "s" }

def truthScene : Scene where
  files := (FileTree.empty ["w"]).put ["w", "s"] (.file truthDocument.toUTF8)
  console := []
  now := ⟨2024, 1, 1, 0, 0, 0, 0⟩

theorem pathOf?_schemaVariable : pathOf? schemaVariable.1 = some ["schema"] := by decide +kernel

theorem load_schemaVariable : Config.load [schemaVariable] none = .ok truthConfig := by
  have htree : ofEnvironment [schemaVariable] = table [("schema", ofVariable "s")] :=
    Config.ofEnvironment_single pathOf?_schemaVariable
  rw [Config.load_none, htree, Config.ofTree_table (by decide)]
  decide +kernel

theorem loads_truthScene : Loads [schemaVariable] ["--list-types"] truthScene
    { listTypes := true } truthConfig := by
  refine ⟨by decide +kernel, ?_⟩
  exact (loads_of_load load_schemaVariable truthScene).2

theorem onlyRoot_schemaVariable : OnlyRoot [schemaVariable] := by
  refine ⟨by decide, ?_⟩
  simp only [List.forall_mem_singleton]
  intro _ path hpath
  rw [pathOf?_schemaVariable] at hpath
  cases hpath
  decide

theorem listed_truthScene :
    (runOn [schemaVariable] ["--list-types"] truthScene).1 = ⟨0, "true\nQuery\n", none⟩ := by
  rw [runOn_of_loads loads_truthScene rfl]
  decide +kernel

theorem objectNames_truthScene {types : TypeMap}
    (h : TypesOf (LogPlace truthConfig truthScene) truthScene.files truthConfig types) :
    types.objectNames = ["true", "Query"] := by
  -- Nothing is logged to a file in this scene.
  obtain ⟨path, document, hpath, ⟨bytes, htext, hbytes⟩, hdocument⟩ := h
  cases hpath
  have hfile : truthScene.files.file? (truthScene.files.place "s") =
      some truthDocument.toUTF8 := by decide +kernel
  have hclear : ¬ LogPlace truthConfig truthScene (truthScene.files.place "s") := by
    rintro ⟨file, ⟨⟩, -⟩
  obtain rfl : truthDocument.toUTF8 = bytes := Option.some.inj (hfile.symm.trans (hbytes hclear))
  have hread : textOfBytes truthDocument.toUTF8 = .ok truthDocument := by decide +kernel
  rw [hread] at htext
  cases htext
  have hnames : (TypeMap.ofDocument? truthDocument).map TypeMap.objectNames =
      some ["true", "Query"] := by decide +kernel
  rw [hdocument] at hnames
  exact Option.some.inj hnames

theorem listed_names_are_root_values_query : ∃ types l s',
    runOn [schemaVariable] ["--list-types"] truthScene = conclude (.ok (typeList types), s') ∧
    types.objectNames = ["true", "Query"] ∧
    Loads (Members.put [schemaVariable] rootVariable "Query") [] truthScene {}
      { truthConfig with rootType := some "Query" } ∧
    runOn (Members.put [schemaVariable] rootVariable "Query") [] truthScene =
      conclude ((convertRoot l truthConfig types "Query").onScene s') := by
  have hcode : (runOn [schemaVariable] ["--list-types"] truthScene).1.code = 0 := by
    rw [listed_truthScene]
  obtain ⟨types, l, s', htypes, hrun, hroots⟩ :=
    listed_names_are_root_values loads_truthScene rfl hcode onlyRoot_schemaVariable
  have hnames := objectNames_truthScene htypes
  have hquery : "Query" ∈ types.objectNames := by
    rw [hnames]
    decide
  exact ⟨types, l, s', hrun, hnames, hroots "Query" hquery (by decide) (by decide) [] rfl⟩

theorem ofEnvironment_rooted (name : String) :
    ofEnvironment (Members.put [schemaVariable] rootVariable name) =
      table [("root_type", ofVariable name), ("schema", ofVariable schemaVariable.2)] := by
  have hput : Members.put [schemaVariable] rootVariable name =
      [schemaVariable, (rootVariable, name)] := rfl
  rw [hput]
  simp [ofEnvironment, pathOf?_schemaVariable, pathOf?_rootVariable, nest, join, joinEntries,
    joinValue, Members.get?, Members.has]

/-- Another spelling of the variable, behind it. -/
def respelled : Environment :=
  [(rootVariable, "User"), ("graphql_json_schema_root_type", "Other")]

theorem load_respelled : Config.load (Members.put respelled rootVariable "Query") none =
    .ok { Config.standard with rootType := some "Other" } := by
  have hpath : pathOf? "graphql_json_schema_root_type" = some ["root_type"] := by decide +kernel
  have htree : ofEnvironment (Members.put respelled rootVariable "Query") =
      table [("root_type", ofVariable "Other")] := by
    have hput : Members.put respelled rootVariable "Query" =
      [(rootVariable, "Query"), ("graphql_json_schema_root_type", "Other")] := rfl
    have hother : ofVariable "Other" = string "Other" :=
      ofVariable_name (by decide) (by decide) (by decide)
    have hquery : ofVariable "Query" = string "Query" :=
      ofVariable_name (by decide) (by decide) (by decide)
    rw [hput]
    simp [ofEnvironment, hpath, pathOf?_rootVariable, nest, join, joinEntries, joinValue, hother,
      hquery, Members.get?, Members.has]
  rw [Config.load_none, htree, Config.ofTree_table (by decide)]
  decide +kernel

/-- A listed `true` is read as a truth value, which is no root. -/
theorem truth_names_are_no_root_values :
    (runOn [schemaVariable] ["--list-types"] truthScene).1 = ⟨0, "true\nQuery\n", none⟩ ∧
    (∀ c, ¬ Loads (Members.put [schemaVariable] rootVariable "true") [] truthScene {} c) ∧
    (runOn (Members.put [schemaVariable] rootVariable "true") [] truthScene).1.code = 1 ∧
    Config.load (Members.put respelled rootVariable "Query") none =
      .ok { Config.standard with rootType := some "Other" } := by
  have hload : Config.load (Members.put [schemaVariable] rootVariable "true") none =
      .error (.setting ⟨.wrongKind "bool true" "a string", ["root_type"]⟩) := by
    rw [Config.load_none, ofEnvironment_rooted, Config.ofTree_table (by decide)]
    decide +kernel
  have hfails : ((readConfig Host.ofScene (Members.put [schemaVariable] rootVariable "true")
      none).onScene truthScene).1 =
        .error (.setting ⟨.wrongKind "bool true" "a string", ["root_type"]⟩ .environment) := by
    change (Config.load _ none).mapError _ = _
    rw [hload]
    rfl
  refine ⟨listed_truthScene, ?_, ?_, load_respelled⟩
  · rintro c ⟨-, hc⟩
    rw [hfails] at hc
    cases hc
  · rw [runOn_of_error rfl hfails]
    rfl

end CommandLine

end GraphShape
