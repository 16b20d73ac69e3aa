import GraphShape.Proofs.Pointers
import GraphShape.Proofs.TypeGraph
import GraphShape.Sdl.Loading

/-!
# The names of a schema document

The types of a document have GraphQL names, each its own. The key fact is that a token which is a
name is a GraphQL name, and that no parser makes up a name: each only takes tokens from the front.
Extensions and what is built in bring no other names.
-/

namespace GraphShape

namespace Sdl

/-! ## Tokens -/

def Token.WellNamed : Token → Prop
  | .name s => isGraphQLName s = true
  | _ => True

/-- Every name among the tokens is a GraphQL name. -/
def WellNamed (tokens : List Token) : Prop := ∀ t ∈ tokens, t.WellNamed

namespace Token

theorem wellNamed_of_readNumber {text rest : List Char} {token : Token}
    (h : readNumber text = some (token, rest)) : token.WellNamed := by
  simp only [readNumber, Option.bind_eq_bind, Option.bind_eq_some_iff, Prod.exists] at h
  obtain ⟨_, _, -, _, _, -, _, _, -, h⟩ := h
  split_ifs at h
  all_goals
    cases h
    trivial

theorem wellNamed_of_readQuoted {n : Nat} {seen text rest : List Char} {token : Token}
    (h : readQuoted n seen text = some (token, rest)) : token.WellNamed := by
  fun_induction readQuoted n seen text with
  | case1 => cases h
  | case2 => cases h
  | case3 n seen more =>
    cases h
    trivial
  | case4 n seen more ih =>
    obtain ⟨⟨ch, after⟩, -, h⟩ := Option.bind_eq_some_iff.mp h
    exact ih _ _ h
  | case5 n seen ch more _ ih =>
    obtain ⟨plain, -, h⟩ := Option.bind_eq_some_iff.mp h
    exact ih _ h
  | case6 => cases h
  | case7 n seen ch more _ _ _ _ ih => exact ih h

theorem wellNamed_of_readBlock {seen text rest : List Char} {token : Token}
    (h : readBlock seen text = some (token, rest)) : token.WellNamed := by
  fun_induction readBlock seen text with
  | case1 seen more =>
    cases h
    trivial
  | case2 seen more ih => exact ih h
  | case3 seen ch more _ _ ih => exact ih h
  | case4 => cases h

theorem wellNamed_of_read {first : Char} {text rest : List Char} {token : Token}
    (h : read first text = some (token, rest)) : token.WellNamed := by
  unfold read at h
  split_ifs at h with hcomma hmark hname hnumber
  · cases h
    trivial
  · cases h
    trivial
  · cases h
    rw [WellNamed, isGraphQLName, String.toList_ofList]
    simp only [hname, Bool.true_and, List.all_takeWhile]
  · exact wellNamed_of_readNumber h
  · split at h
    · exact wellNamed_of_readBlock h
    · unfold readText at h
      split at h
      · split_ifs at h
        · exact wellNamed_of_readQuoted h
        · exact wellNamed_of_readQuoted h
      · cases h
    · cases h
      trivial
    · cases h

theorem wellNamed_of_readAll {n : Nat} {text : List Char} {tokens : List Token}
    (h : readAll n text = some tokens) : Sdl.WellNamed tokens := by
  fun_induction readAll n text generalizing tokens with
  | case1 =>
    cases h
    exact fun _ ht => absurd ht List.not_mem_nil
  | case2 => cases h
  | case3 n ch rest _ ih => exact ih h
  | case4 n rest _ ih => exact ih h
  | case5 n ch rest _ _ ih =>
    simp only [Option.bind_eq_bind, Option.bind_eq_some_iff, Prod.exists] at h
    obtain ⟨token, after, htoken, more, hmore, h⟩ := h
    cases h
    exact List.forall_mem_cons.mpr ⟨wellNamed_of_read htoken, ih _ hmore⟩

end Token

/-! ## Parsers -/

namespace Parser

variable {α β : Type} {p : Parser α} {Q : α → Prop}

/-- In front of well-named tokens a parser gives what has a property, and leaves well-named ones. -/
def Takes (p : Parser α) (Q : α → Prop) : Prop :=
  ∀ ts a rest, WellNamed ts → p ts = some (a, rest) → Q a ∧ WellNamed rest

/-- A parser leaves well-named tokens. -/
abbrev Leaves (p : Parser α) : Prop := Takes p fun _ => True

theorem takes_pure {a : α} (h : Q a) : Takes (pure a) Q := by
  rintro ts _ _ hts ⟨⟩
  exact ⟨h, hts⟩

theorem takes_failure : Takes (failure : Parser α) Q := by
  rintro ts a rest - ⟨⟩

theorem Takes.bind {f : α → Parser β} {R : β → Prop} (hp : Takes p Q)
    (hf : ∀ a, Q a → Takes (f a) R) : Takes (p >>= f) R := by
  intro ts b rest hts h
  obtain ⟨⟨a, between⟩, ha, hb⟩ := Option.bind_eq_some_iff.mp h
  obtain ⟨hQ, hbetween⟩ := hp _ _ _ hts ha
  exact hf a hQ _ _ _ hbetween hb

theorem Takes.leaves (h : Takes p Q) : Leaves p :=
  fun ts a rest hts hp => ⟨trivial, (h ts a rest hts hp).2⟩

theorem takes_bounded {f : Nat → Parser α} (h : ∀ n, Takes (f n) Q) (bound : List Token → Nat) :
    Takes (fun ts => f (bound ts) ts) Q := fun ts => h (bound ts) ts

/-! ### Tokens -/

theorem takes_peek : Takes peek fun t => ∀ token, t = some token → token.WellNamed := by
  rintro ts _ _ hts ⟨⟩
  have hrest : WellNamed (ts.dropWhile (· = .comma)) :=
    fun t ht => hts t ((List.dropWhile_sublist _).subset ht)
  exact ⟨fun token htoken => hrest token (List.mem_of_head? htoken), hrest⟩

theorem leaves_skip : Leaves skip := by
  rintro ts _ _ hts ⟨⟩
  exact ⟨trivial, fun t ht => hts t (List.mem_of_mem_drop ht)⟩

theorem leaves_accept (token : Token) : Leaves (accept token) := by
  refine takes_peek.bind fun _ _ => ?_
  split
  · exact leaves_skip.bind fun _ _ => takes_pure trivial
  · exact takes_pure trivial

theorem leaves_expect (token : Token) : Leaves (expect token) := by
  refine (leaves_accept token).bind fun _ _ => ?_
  split
  · exact takes_pure trivial
  · exact takes_failure

theorem leaves_acceptMark (ch : Char) : Leaves (acceptMark ch) := leaves_accept _

theorem leaves_expectMark (ch : Char) : Leaves (expectMark ch) := leaves_expect _

theorem takes_name : Takes name fun s => isGraphQLName s = true := by
  refine takes_peek.bind fun t ht => ?_
  split
  · exact leaves_skip.bind fun _ _ => takes_pure (ht _ rfl)
  · exact takes_failure

theorem leaves_noComma : Leaves noComma := by
  intro ts a rest hts h
  unfold noComma at h
  split_ifs at h
  cases h
  exact ⟨trivial, hts⟩

theorem leaves_description : Leaves description := by
  refine takes_peek.bind fun _ _ => ?_
  split
  · exact leaves_skip.bind fun _ _ => takes_pure trivial
  · exact takes_pure trivial

/-! ### Lists -/

section Lists

variable {item : Parser α} (h : Leaves item)

include h

theorem leaves_upTo (close : Char) (n : Nat) : Leaves (upTo close item n) := by
  induction n with
  | zero => exact takes_failure
  | succ n ih =>
    refine (leaves_acceptMark close).bind fun _ _ => ?_
    split
    · exact takes_pure trivial
    · exact h.bind fun _ _ => ih.bind fun _ _ => takes_pure trivial

theorem leaves_untilMark (close : Char) : Leaves (untilMark close item) :=
  takes_bounded (leaves_upTo h close) _

theorem leaves_someUntil (close : Char) : Leaves (someUntil close item) := by
  refine (leaves_untilMark h close).bind fun _ _ => ?_
  split
  · exact takes_failure
  · exact takes_pure trivial

theorem leaves_bracketed (start close : Char) : Leaves (bracketed start close item) := by
  refine (leaves_acceptMark start).bind fun _ _ => ?_
  split
  · exact leaves_someUntil h close
  · exact takes_pure trivial

theorem leaves_labelled : Leaves (labelled item) := by
  refine takes_name.bind fun _ _ => Takes.bind (Q := fun _ => True) ?_ fun _ _ => takes_pure trivial
  refine (leaves_acceptMark ':').bind fun _ _ => ?_
  split
  · exact h.bind fun _ _ => takes_pure trivial
  · exact takes_pure trivial

theorem leaves_behindMarks (mark : Char) (n : Nat) : Leaves (behindMarks mark item n) := by
  induction n with
  | zero => exact takes_pure trivial
  | succ n ih =>
    refine (leaves_acceptMark mark).bind fun _ _ => ?_
    split
    · exact h.bind fun _ _ => ih.bind fun _ _ => takes_pure trivial
    · exact takes_pure trivial

theorem leaves_separated (mark : Char) : Leaves (separated mark item) :=
  (leaves_acceptMark mark).bind fun _ _ => h.bind fun _ _ =>
    (takes_bounded (leaves_behindMarks h mark) _).bind fun _ _ => takes_pure trivial

end Lists

/-! ### Parts of types -/

theorem leaves_typeRef (n : Nat) : Leaves (typeRef n) := by
  induction n with
  | zero => exact takes_failure
  | succ n ih =>
    refine (leaves_acceptMark '[').bind fun _ _ => ?_
    split
    · exact ih.bind fun _ _ => (leaves_expectMark ']').bind fun _ _ =>
        (leaves_acceptMark '!').bind fun _ _ => takes_pure trivial
    · exact takes_name.bind fun _ _ => (leaves_acceptMark '!').bind fun _ _ => takes_pure trivial

theorem leaves_value (n : Nat) : Leaves (value n) := by
  induction n with
  | zero => exact takes_failure
  | succ n ih =>
    refine takes_peek.bind fun _ _ => ?_
    split
    · exact leaves_skip.bind fun _ _ => takes_pure trivial
    · exact leaves_skip.bind fun _ _ => takes_pure trivial
    · exact leaves_skip.bind fun _ _ => takes_pure trivial
    · exact leaves_skip.bind fun _ _ => takes_pure trivial
    · exact leaves_skip.bind fun _ _ => (leaves_untilMark ih ']').bind fun _ _ => takes_pure trivial
    · refine leaves_skip.bind fun _ _ => (leaves_untilMark ?_ _).bind fun _ _ => takes_pure trivial
      split
      · exact takes_failure
      · exact leaves_labelled ih
    · exact takes_failure

theorem leaves_directiveUse : Leaves directiveUse :=
  takes_name.bind fun _ _ =>
    (leaves_bracketed (leaves_labelled (leaves_value _)) '(' ')').bind fun _ _ => takes_pure trivial

theorem leaves_directives : Leaves directives :=
  takes_bounded (leaves_behindMarks leaves_directiveUse '@') _

theorem leaves_inputDecl : Leaves inputDecl := by
  refine leaves_description.bind fun _ _ => takes_name.bind fun _ _ =>
    (leaves_expectMark ':').bind fun _ _ => (leaves_typeRef _).bind fun _ _ =>
    Takes.bind (Q := fun _ => True) ?_ fun _ _ => leaves_directives.bind fun _ _ =>
      takes_pure trivial
  refine (leaves_acceptMark '=').bind fun _ _ => ?_
  split
  · exact (leaves_value _).bind fun _ _ => takes_pure trivial
  · exact takes_pure trivial

theorem leaves_arguments : Leaves arguments := leaves_bracketed leaves_inputDecl '(' ')'

theorem leaves_fieldDecl : Leaves fieldDecl :=
  leaves_description.bind fun _ _ => takes_name.bind fun _ _ => leaves_arguments.bind fun _ _ =>
    (leaves_expectMark ':').bind fun _ _ => (leaves_typeRef _).bind fun _ _ =>
      leaves_directives.bind fun _ _ => takes_pure trivial

theorem leaves_enumValueDecl : Leaves enumValueDecl := by
  refine leaves_description.bind fun _ _ => takes_name.bind fun _ _ => ?_
  split
  · exact takes_failure
  · exact leaves_directives.bind fun _ _ => takes_pure trivial

theorem leaves_interfaces : Leaves interfaces := by
  refine (leaves_accept _).bind fun _ _ => ?_
  split
  · exact leaves_separated takes_name.leaves '&'
  · exact takes_pure trivial

theorem leaves_unionMembers : Leaves unionMembers := by
  refine (leaves_acceptMark '=').bind fun _ _ => ?_
  split
  · exact leaves_separated takes_name.leaves '|'
  · exact takes_pure trivial

/-! ### Definitions -/

theorem takes_typeDecl (description : Option String) (keyword : String) :
    Takes (typeDecl description keyword) fun d => isGraphQLName d.name = true := by
  refine takes_name.bind fun s hs => ?_
  split
  · exact leaves_directives.bind fun _ _ => takes_pure hs
  · exact leaves_interfaces.bind fun _ _ => leaves_directives.bind fun _ _ =>
      (leaves_bracketed leaves_fieldDecl _ _).bind fun _ _ => takes_pure hs
  · exact leaves_interfaces.bind fun _ _ => leaves_directives.bind fun _ _ =>
      (leaves_bracketed leaves_fieldDecl _ _).bind fun _ _ => takes_pure hs
  · exact leaves_directives.bind fun _ _ => leaves_unionMembers.bind fun _ _ => takes_pure hs
  · exact leaves_directives.bind fun _ _ =>
      (leaves_bracketed leaves_enumValueDecl _ _).bind fun _ _ => takes_pure hs
  · exact leaves_directives.bind fun _ _ =>
      (leaves_bracketed leaves_inputDecl _ _).bind fun _ _ => takes_pure hs
  · exact takes_failure

theorem leaves_location : Leaves location := by
  refine takes_name.bind fun _ _ => ?_
  split
  · exact takes_pure trivial
  · exact takes_failure

theorem leaves_directiveDecl : Leaves directiveDecl :=
  (leaves_expectMark '@').bind fun _ _ => takes_name.bind fun _ _ =>
    leaves_arguments.bind fun _ _ => (leaves_accept _).bind fun _ _ =>
      (leaves_expect _).bind fun _ _ => (leaves_separated leaves_location '|').bind fun _ _ =>
        takes_pure trivial

theorem leaves_root : Leaves root := by
  refine takes_name.bind fun _ _ => ?_
  split
  · refine (leaves_expectMark ':').bind fun _ _ => Takes.bind (Q := fun _ => True) ?_
      fun _ _ => takes_pure trivial
    refine takes_peek.bind fun _ _ => ?_
    split
    · exact leaves_skip.bind fun _ _ => takes_pure trivial
    · exact takes_pure trivial
  · exact takes_failure

theorem leaves_schemaDecl : Leaves schemaDecl :=
  leaves_directives.bind fun _ _ => (leaves_bracketed leaves_root _ _).bind fun _ _ =>
    takes_pure trivial

theorem leaves_schemaExtension : Leaves schemaExtension := by
  refine leaves_directives.bind fun ds _ => ?_
  have hwhole : ∀ roots : List (Option (Operation × String)),
      Leaves (if ds.isEmpty && roots.isEmpty then failure
        else pure (⟨ds, roots.filterMap id⟩ : SchemaDecl)) := by
    intro roots
    split
    · exact takes_failure
    · exact takes_pure trivial
  refine (leaves_acceptMark _).bind fun _ _ => ?_
  dsimp only
  split
  · exact (leaves_untilMark leaves_root _).bind fun roots _ => hwhole roots
  · exact hwhole []

end Parser

/-- A definition of a type has a GraphQL name. -/
def Definition.WellNamed (d : Definition) : Prop :=
  ∀ t, d.type? = some t → isGraphQLName t.name = true

namespace Parser

theorem takes_extension : Takes extension Definition.WellNamed := by
  refine leaves_noComma.bind fun _ _ => takes_name.bind fun keyword _ => ?_
  split
  · exact leaves_schemaExtension.bind fun _ _ => takes_pure fun t ht => by cases ht
  · refine (takes_typeDecl none keyword).bind fun d _ => ?_
    split
    · exact takes_failure
    · exact takes_pure fun t ht => by cases ht

theorem takes_keyworded (description : Option String) (keyword : String) :
    Takes (keyworded description keyword) Definition.WellNamed := by
  unfold keyworded
  split
  · exact leaves_schemaDecl.bind fun _ _ => takes_pure fun t ht => by cases ht
  · exact leaves_directiveDecl.bind fun _ _ => takes_pure fun t ht => by cases ht
  · refine (takes_typeDecl description keyword).bind fun d hd => takes_pure fun t ht => ?_
    cases ht
    exact hd

theorem takes_definition : Takes definition Definition.WellNamed := by
  refine leaves_description.bind fun text _ => ?_
  have hkeyword : Takes (name >>= fun keyword =>
      if text.isNone && keyword = "extend" then extension else keyworded text keyword)
      Definition.WellNamed := by
    refine takes_name.bind fun keyword _ => ?_
    split
    · exact takes_extension
    · exact takes_keyworded text keyword
  dsimp only
  split
  · exact leaves_noComma.bind fun _ _ => hkeyword
  · exact hkeyword

theorem takes_definitions (n : Nat) :
    Takes (definitions n) fun ds => ∀ d ∈ ds, d.WellNamed := by
  induction n with
  | zero => exact takes_failure
  | succ n ih =>
    refine takes_peek.bind fun _ _ => ?_
    split
    · exact takes_pure fun d hd => absurd hd List.not_mem_nil
    · exact takes_definition.bind fun d hd => ih.bind fun rest hrest =>
        takes_pure (List.forall_mem_cons.mpr ⟨hd, hrest⟩)

end Parser

theorem wellNamed_of_parse {document : String} {ds : List Definition}
    (h : parse? document = some ds) : ∀ d ∈ ds, d.WellNamed := by
  simp only [parse?, Option.bind_eq_bind, Option.bind_eq_some_iff, Prod.exists] at h
  obtain ⟨tokens, htokens, parsed, rest, hparsed, h⟩ := h
  cases h
  exact (Parser.takes_definitions _ _ _ _ (Token.wellNamed_of_readAll htokens) hparsed).1

/-! ## Catalogs -/

theorem nodup_of_distinct {texts : List String} (h : distinct texts = true) : texts.Nodup := by
  induction texts with
  | nil => exact List.nodup_nil
  | cons t rest ih =>
    rw [distinct, Bool.and_eq_true] at h
    exact List.nodup_cons.mpr ⟨by simpa using h.1, ih h.2⟩

theorem TypeDecl.name_extend {d e whole : TypeDecl} (h : d.extend? e = some whole) :
    whole.name = d.name := by
  obtain ⟨body, -, h⟩ := Option.bind_eq_some_iff.mp h
  cases h
  rfl

theorem TypeDecl.name_complete {before behind : List TypeDecl} {d whole : TypeDecl}
    (h : d.complete? before behind = some whole) : whole.name = d.name := by
  simp only [complete?, Option.bind_eq_bind, Option.bind_eq_some_iff] at h
  obtain ⟨extended, hbehind, h⟩ := h
  split_ifs at h
  cases h
  have hbefore : ∀ es : List TypeDecl,
      (es.foldl (fun d e => (d.extend? e).getD d) d).name = d.name := by
    intro es
    refine List.foldlRecOn (motive := fun whole => TypeDecl.name whole = d.name) es _ rfl
      fun whole hwhole e _ => ?_
    cases he : whole.extend? e with
    | none => exact hwhole
    | some next => exact (name_extend he).trans hwhole
  have hkeeps : ∀ (es : List TypeDecl) (start whole : TypeDecl),
      es.foldlM extend? start = some whole → whole.name = start.name := by
    intro es
    induction es with
    | nil =>
      rintro start _ ⟨⟩
      rfl
    | cons e rest ih =>
      intro start whole h
      obtain ⟨next, hnext, h⟩ := Option.bind_eq_some_iff.mp h
      exact (ih next whole h).trans (name_extend hnext)
  exact (hkeeps _ _ _ hbehind).trans (hbefore _)

theorem names_completeAll {before : List TypeDecl} {ds : List Definition} {whole : List TypeDecl}
    (h : completeAll? before ds = some whole) :
    whole.map TypeDecl.name = (ds.filterMap Definition.type?).map TypeDecl.name := by
  fun_induction completeAll? before ds generalizing whole with
  | case1 =>
    cases h
    rfl
  | case2 before e rest ih => exact ih h
  | case3 before d rest ih =>
    simp only [Option.bind_eq_bind, Option.bind_eq_some_iff] at h
    obtain ⟨complete, hcomplete, more, hmore, h⟩ := h
    cases h
    rw [List.map_cons, TypeDecl.name_complete hcomplete, ih hmore]
    rfl
  | case4 before d rest hextension htype ih =>
    rw [ih h]
    cases d with
    | type d => exact absurd rfl (htype d)
    | _ => rfl

/-- Every type stands under its own name, and the names are different GraphQL names. -/
structure Catalog.Named (types : Members TypeDecl) : Prop where
  nodup : (Members.names types).Nodup
  keyed : ∀ m ∈ types, m.2.name = m.1
  graphQL : ∀ n ∈ Members.names types, isGraphQLName n = true

theorem builtInTypes_graphQL : ∀ d ∈ builtInTypes.map Prod.snd, isGraphQLName d.name = true := by
  decide +kernel

theorem named_assembleTypes {ds : List Definition} {types : Members TypeDecl}
    (hds : ∀ d ∈ ds, d.WellNamed) (h : assembleTypes? ds = some types) : Catalog.Named types := by
  simp only [assembleTypes?] at h
  split_ifs at h with hdistinct
  simp only [Option.bind_eq_bind, Option.bind_eq_some_iff] at h
  obtain ⟨whole, hwhole, h⟩ := h
  cases h
  have hnames : Members.names (whole.map fun d => (d.name, d)) =
      (builtInTypes.map Prod.snd ++ ds.filterMap Definition.type?).map TypeDecl.name := by
    have hbuiltIn : (builtInTypes.map Prod.snd |>.map Definition.type).filterMap Definition.type? =
        builtInTypes.map Prod.snd := by
      rw [List.filterMap_map]
      exact List.filterMap_some
    have hwhole := names_completeAll hwhole
    rw [List.filterMap_append, hbuiltIn] at hwhole
    rw [← hwhole, Members.names, List.map_map]
    rfl
  refine ⟨?_, ?_, ?_⟩
  · rw [hnames]
    exact nodup_of_distinct (Bool.and_eq_true_iff.mp hdistinct).1
  · intro m hm
    obtain ⟨d, -, rfl⟩ := List.mem_map.mp hm
    rfl
  · intro n hn
    rw [hnames] at hn
    obtain ⟨t, ht, rfl⟩ := List.mem_map.mp hn
    rcases List.mem_append.mp ht with ht | ht
    · exact builtInTypes_graphQL t ht
    · obtain ⟨d, hd, ht⟩ := List.mem_filterMap.mp ht
      exact hds d hd t ht

theorem TypeDecl.name_toTypeDef (d : TypeDecl) : d.toTypeDef.name = d.name := by
  unfold toTypeDef
  split <;> rfl

end Sdl

open Sdl

/-- A document gives a map of different GraphQL names. -/
theorem TypeMap.ofDocument?_named {document : String} {types : TypeMap}
    (h : TypeMap.ofDocument? document = some types) :
    types.Lawful ∧ ∀ n ∈ Members.names types, isGraphQLName n = true := by
  obtain ⟨catalog, hcatalog, rfl⟩ := Option.map_eq_some_iff.mp h
  simp only [Catalog.ofText?, Option.bind_eq_bind, Option.bind_eq_some_iff] at hcatalog
  obtain ⟨ds, hds, whole, hwhole, hvalid⟩ := hcatalog
  split_ifs at hvalid
  cases hvalid
  simp only [Catalog.assemble?, Option.bind_eq_bind, Option.bind_eq_some_iff] at hwhole
  obtain ⟨declared, hdeclared, directives, -, schema, -, hwhole⟩ := hwhole
  cases hwhole
  obtain ⟨hnodup, hkeyed, hgraphQL⟩ := named_assembleTypes (wellNamed_of_parse hds) hdeclared
  have hsub : (Members.names
      (Catalog.toTypeMap ⟨declared, directives, schema.directives, schema.roots⟩)).Sublist
        (Members.names declared) := by
    rw [Catalog.toTypeMap, Members.names, List.map_map]
    exact List.filter_sublist.map Prod.fst
  refine ⟨⟨hsub.nodup hnodup, ?_⟩, fun n hn => hgraphQL n (hsub.subset hn)⟩
  intro m hm
  obtain ⟨d, hd, rfl⟩ := List.mem_map.mp hm
  exact d.2.name_toTypeDef.trans (hkeyed d (List.mem_of_mem_filter hd))

end GraphShape
