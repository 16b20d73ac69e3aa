import GraphShape.Files.Tree
import Mathlib.Tactic.SplitIfs

/-!
# What operations do to a file tree

A path means one place, whether anything is there or not: its names followed one by one from where
it starts. The key fact is that every operation on files ends at that place, so a change changes
nothing else, and making directories touches only places where nothing was.
-/

namespace GraphShape

/-! ## Results -/

section Results

variable {ε α β : Type}

theorem ok_of_except_bind {x : Except ε α} {f : α → Except ε β} {b : β} (h : x >>= f = .ok b) :
    ∃ a, x = .ok a ∧ f a = .ok b := by
  cases x with
  | error e => cases h
  | ok a => exact ⟨a, rfl, h⟩

/-- The same fault, or two related results. -/
inductive SameEnd (R : α → α → Prop) : Except ε α → Except ε α → Prop where
  | fault (e : ε) : SameEnd R (.error e) (.error e)
  | done {a b : α} (h : R a b) : SameEnd R (.ok a) (.ok b)

theorem SameEnd.bind {R : α → α → Prop} {S : β → β → Prop} {x y : Except ε α}
    {f g : α → Except ε β} (h : SameEnd R x y) (hfg : ∀ a b, R a b → SameEnd S (f a) (g b)) :
    SameEnd S (x >>= f) (y >>= g) := by
  cases h with
  | fault e => exact .fault e
  | done hab => exact hfg _ _ hab

theorem SameEnd.of_eq (x : Except ε α) : SameEnd Eq x x := by
  cases x with
  | error e => exact .fault e
  | ok a => exact .done rfl

end Results

/-! ## Places -/

namespace Path

/-- The place that names lead to. -/
def resolve : Place → List String → Place
  | place, [] => place
  | place, name :: rest =>
    if name = "." then resolve place rest
    else if name = ".." then resolve place.dropLast rest
    else resolve (place ++ [name]) rest

/-- The place that a path means in a working directory. -/
def place (here : Place) (path : String) : Place :=
  resolve (if startsAtRoot path then [] else here) (names path)

theorem resolve_append (place : Place) (names rest : List String) :
    resolve place (names ++ rest) = resolve (resolve place names) rest := by
  induction names generalizing place with
  | nil => rfl
  | cons name names ih =>
    rw [List.cons_append, resolve, resolve]
    split
    · exact ih place
    · split
      · exact ih _
      · exact ih _

theorem isPrefix_resolve {names : List String} (h : ".." ∉ names) (place : Place) :
    place <+: resolve place names := by
  induction names generalizing place with
  | nil => exact List.prefix_refl place
  | cons name names ih =>
    have hname : name ≠ ".." := fun heq => h (heq ▸ List.mem_cons_self)
    have hrest : ".." ∉ names := fun hmem => h (List.mem_cons_of_mem _ hmem)
    rw [resolve, if_neg hname]
    split
    · exact ih hrest place
    · exact (List.prefix_append place [name]).trans (ih hrest _)

/-! ## The name of a file behind a directory -/

/-- The names in a text of characters. -/
def namesIn (text : List Char) : List String :=
  ((text.splitOn '/').filter (fun name => !name.isEmpty)).map String.ofList

theorem names_eq (path : String) : names path = namesIn path.toList := rfl

end Path

namespace FileTree

variable {t t' : FileTree}

def place (t : FileTree) (path : String) : Place := Path.place t.here path

/-- The bytes of the file at a place. -/
def file? (t : FileTree) (p : Place) : Option ByteArray :=
  match t.at? p with
  | some (.file bytes) => some bytes
  | _ => none

theorem file?_of_at? {p : Place} {bytes : ByteArray} (h : t.at? p = some (.file bytes)) :
    t.file? p = some bytes := by
  rw [file?, h]

/-! ## Where a path ends -/

/-- What a name that is no step upwards leads to. -/
def enter (t : FileTree) (p : Place) (rest : List String) : Except FileFault Target :=
  match t.at? p, rest with
  | some .directory, rest => t.follow p rest
  | some (.file bytes), [] => .ok (.file p bytes)
  | some (.file _), _ :: _ => .error .notADirectory
  | none, [] => .ok (.vacant p)
  | none, _ :: _ => .error .notFound

theorem follow_cons (t : FileTree) (p : Place) (name : String) (rest : List String) :
    t.follow p (name :: rest) =
      if name = "." then t.follow p rest
      else if name = ".." then t.follow p.dropLast rest
      else if Path.nameLimit < name.utf8ByteSize then .error .nameTooLong
      else t.enter (p ++ [name]) rest := by
  rw [follow, enter.eq_def]
  cases t.at? (p ++ [name]) with
  | none => cases rest with
    | nil => rfl
    | cons _ _ => rfl
  | some e => cases e with
    | directory => rfl
    | file bytes => cases rest with
      | nil => rfl
      | cons _ _ => rfl

/-- Where a file can be put, with the bytes that are there. -/
def Target.slot? : Target → Option (Place × ByteArray)
  | .directory _ => none
  | .file p bytes => some (p, bytes)
  | .vacant p => some (p, ByteArray.empty)

/-- The target is at a place, and is what the tree has there. -/
def Target.IsAt (t : FileTree) (p : Place) : Target → Prop
  | .directory q => q = p
  | .file q bytes => q = p ∧ t.at? p = some (.file bytes)
  | .vacant q => q = p ∧ t.at? p = none

theorem follow_isAt {names : List String} {target : Target} {p : Place}
    (h : t.follow p names = .ok target) : target.IsAt t (Path.resolve p names) := by
  induction names generalizing p with
  | nil =>
    cases h
    rfl
  | cons name rest ih =>
    rw [follow_cons] at h
    rw [Path.resolve]
    split_ifs at h ⊢ with hhere habove
    · exact ih h
    · exact ih h
    · revert h
      fun_cases enter t (p ++ [name]) rest with
      | case1 => exact ih
      | case2 bytes hat =>
        rintro ⟨⟩
        exact ⟨rfl, hat⟩
      | case4 hat =>
        rintro ⟨⟩
        exact ⟨rfl, hat⟩
      | _ => rintro ⟨⟩

theorem Target.IsAt.slot {target : Target} {p q : Place} {bytes : ByteArray} (h : target.IsAt t p)
    (hslot : target.slot? = some (q, bytes)) :
    q = p ∧ t.at? p ≠ some .directory ∧ bytes = (t.file? p).getD ByteArray.empty := by
  cases target with
  | directory place => cases hslot
  | file place b =>
    obtain ⟨rfl, hat⟩ := h
    cases hslot
    exact ⟨rfl, by simp [hat], by simp [file?, hat]⟩
  | vacant place =>
    obtain ⟨rfl, hat⟩ := h
    cases hslot
    exact ⟨rfl, by simp [hat], by simp [file?, hat]⟩

theorem follow_put {names : List String} {target : Target} {p q : Place} {b : ByteArray}
    (h : t.follow q names = .ok target) (hslot : target.slot? = some (p, b))
    (hp : t.at? p ≠ some .directory) (bytes : ByteArray) :
    (t.put p (.file bytes)).follow q names = .ok (.file p bytes) := by
  induction names generalizing q with
  | nil =>
    cases h
    cases hslot
  | cons name rest ih =>
    rw [follow_cons] at h ⊢
    split_ifs at h ⊢ with hhere habove
    · exact ih h
    · exact ih h
    · revert h
      fun_cases enter t (q ++ [name]) rest with
      | case1 _ hat =>
        -- The way leads through directories, and there is none where the file is put.
        have hne : q ++ [name] ≠ p := fun heq => hp (heq ▸ hat)
        intro h
        rw [enter.eq_def, at?_put_of_ne t _ hne, hat]
        exact ih h
      | case2 =>
        rintro ⟨⟩
        cases hslot
        rw [enter.eq_def, at?_put_self]
      | case4 =>
        rintro ⟨⟩
        cases hslot
        rw [enter.eq_def, at?_put_self]
      | _ => rintro ⟨⟩

/-! ## Reading and changing -/

theorem find_isAt {path : String} {target : Target} (h : t.find path = .ok target) :
    target.IsAt t (t.place path) := by
  obtain ⟨-, -, h⟩ := ok_of_except_bind h
  split at h
  · cases h
  · have hat := follow_isAt h
    rw [Path.resolve_append] at hat
    split at hat
    · exact hat
    · exact hat

theorem read_ok {path text : String} (h : t.read path = .ok text) :
    ∃ bytes, t.file? (t.place path) = some bytes ∧ textOfBytes bytes = .ok text := by
  rw [read] at h
  split at h
  next q bytes hfind => exact ⟨bytes, file?_of_at? (find_isAt hfind).2, h⟩
  all_goals cases h

/-- Changes the bytes of the file that a path has led to. -/
def fill (t : FileTree) (path : String) (f : ByteArray → ByteArray) (target : Target) :
    Except FileFault FileTree :=
  match target.slot? with
  | none => .error .isADirectory
  | some (p, bytes) =>
    if Path.endsInSlash path then .error .isADirectory else .ok (t.put p (.file (f bytes)))

theorem change_eq (t : FileTree) (path : String) (f : ByteArray → ByteArray) :
    t.change path f = (do
      Path.check path
      if path.isEmpty then .error .notFound
      else t.follow (t.start path) (Path.names path) >>= t.fill path f) := by
  rw [change]
  refine congrArg (Path.check path >>= ·) (funext fun _ => ?_)
  split
  · rfl
  · cases t.follow (t.start path) (Path.names path) with
    | error fault => rfl
    | ok target => cases target <;> rfl

/-- Every change of a file is made at its place, and can be made. -/
def Holds (t : FileTree) (path : String) (bytes : ByteArray) : Prop :=
  ∀ f, t.change path f = .ok (t.put (t.place path) (.file (f bytes)))

theorem change_ok {path : String} {f : ByteArray → ByteArray} (h : t.change path f = .ok t') :
    t.at? (t.place path) ≠ some .directory ∧
      t' = t.put (t.place path) (.file (f ((t.file? (t.place path)).getD ByteArray.empty))) ∧
      ∀ bytes, (t.put (t.place path) (.file bytes)).Holds path bytes := by
  rw [change_eq] at h
  obtain ⟨⟨⟩, hcheck, h⟩ := ok_of_except_bind h
  split at h
  · cases h
  next hempty =>
    obtain ⟨target, hfollow, h⟩ := ok_of_except_bind h
    rw [fill] at h
    split at h
    · cases h
    next q b hslot =>
      split at h
      · cases h
      next hslash =>
        cases h
        obtain ⟨rfl, hnot, rfl⟩ := (follow_isAt hfollow).slot hslot
        refine ⟨hnot, rfl, fun bytes g => ?_⟩
        have hput : (t.put (t.place path) (.file bytes)).follow (t.start path) (Path.names path) =
            .ok (.file (t.place path) bytes) := follow_put hfollow hslot hnot bytes
        rw [change_eq, hcheck]
        change (if _ then _ else FileTree.follow _ (t.start path) _ >>= _) = _
        rw [if_neg hempty, hput]
        exact if_neg hslash

theorem Holds.put {path : String} {bytes : ByteArray} (h : t.Holds path bytes) (more : ByteArray) :
    (t.put (t.place path) (.file more)).Holds path more := (change_ok (h id)).2.2 more

/-! ## Making directories -/

/-- Nothing has changed but some files, and some directories that were made where nothing was. -/
structure Kept (but made : Place → Prop) (t t' : FileTree) : Prop where
  here : t'.here = t.here
  at? : ∀ q, ¬ but q →
    t'.at? q = t.at? q ∨ (t.at? q = none ∧ t'.at? q = some .directory ∧ made q)

namespace Kept

variable {but made : Place → Prop} {t'' : FileTree}

theorem refl (but made : Place → Prop) (t : FileTree) : Kept but made t t :=
  ⟨rfl, fun _ _ => .inl rfl⟩

theorem trans (h : Kept but made t t') (h' : Kept but made t' t'') : Kept but made t t'' := by
  refine ⟨h'.here.trans h.here, fun q hq => ?_⟩
  rcases h'.at? q hq with hsame' | ⟨hnone', hdir', hmade⟩
  · rw [hsame']
    exact h.at? q hq
  · rcases h.at? q hq with hsame | ⟨-, hdir, -⟩
    · exact .inr ⟨hsame.symm.trans hnone', hdir', hmade⟩
    · rw [hdir] at hnone'
      cases hnone'

theorem mono {more : Place → Prop} (h : Kept but made t t') (hmore : ∀ q, made q → more q) :
    Kept but more t t' :=
  ⟨h.here, fun q hq => (h.at? q hq).imp_right fun ⟨hnone, hdir, hmade⟩ =>
    ⟨hnone, hdir, hmore q hmade⟩⟩

theorem put_directory {p : Place} (hp : t.at? p = none) (hmade : made p) :
    Kept but made t (t.put p .directory) := by
  refine ⟨rfl, fun q _ => ?_⟩
  by_cases heq : q = p
  · subst heq
    exact .inr ⟨hp, at?_put_self _ _ _, hmade⟩
  · exact .inl (at?_put_of_ne t _ heq)

theorem put_file {p : Place} (hp : but p) (bytes : ByteArray) :
    Kept but made t (t.put p (.file bytes)) := by
  refine ⟨rfl, fun q hq => .inl (at?_put_of_ne t _ ?_)⟩
  rintro rfl
  exact hq hp

theorem file? (h : Kept but made t t') {q : Place} (hq : ¬ but q) : t'.file? q = t.file? q := by
  rcases h.at? q hq with hsame | ⟨hnone, hdir, -⟩
  · rw [FileTree.file?, FileTree.file?, hsame]
  · rw [FileTree.file?, FileTree.file?, hnone, hdir]

theorem place (h : Kept but made t t') (path : String) : t'.place path = t.place path :=
  congrArg (fun here => Path.place here path) h.here

end Kept

/-- The directories that are made lie on the way, unless names lead upwards. -/
theorem makeFrom_kept {names : List String} {p : Place} (but : Place → Prop)
    (h : t.makeFrom p names = .ok t') :
    Kept but (fun q => ".." ∉ names → q <+: Path.resolve p names) t t' := by
  have tail {name : String} {rest : List String} (hup : ".." ∉ name :: rest) : ".." ∉ rest :=
    fun hmem => hup (List.mem_cons_of_mem _ hmem)
  fun_induction makeFrom t p names with
  | case1 t p =>
    cases h
    exact .refl _ _ _
  | case2 t p rest ih => exact (ih h).mono fun q hway hup => hway (tail hup)
  -- A step upwards: nothing is said about the way.
  | case3 t p rest hhere ih => exact (ih h).mono fun q _ hup => absurd List.mem_cons_self hup
  | case4 => cases h
  | case5 t p name rest hhere habove hlong hat ih =>
    rw [Path.resolve, if_neg hhere, if_neg habove]
    exact (ih h).mono fun q hway hup => hway (tail hup)
  | case6 => cases h
  | case7 t p name rest hhere habove hlong hat ih =>
    rw [Path.resolve, if_neg hhere, if_neg habove]
    have hrest := (ih h).mono fun q hway (hup : ".." ∉ name :: rest) => hway (tail hup)
    refine (Kept.put_directory hat ?_).trans hrest
    exact fun hup => Path.isPrefix_resolve (tail hup) _

theorem makeDirectories_kept {path : String} (but : Place → Prop)
    (h : t.makeDirectories path = .ok t') :
    Kept but (fun q => ".." ∉ Path.names path → q <+: t.place path) t t' := by
  obtain ⟨-, -, h⟩ := ok_of_except_bind h
  exact makeFrom_kept but h

end FileTree

/-! ## Trees that differ in the bytes of some files -/

def FileEntry.isDirectory : FileEntry → Bool
  | .directory => true
  | .file _ => false

namespace FileTree

variable {but : Place → Prop} {t₁ t₂ t₃ : FileTree}

/-- The same files and directories, with the same bytes except in some places. -/
structure Alike (but : Place → Prop) (t₁ t₂ : FileTree) : Prop where
  here : t₁.here = t₂.here
  kind : ∀ p, (t₁.at? p).map FileEntry.isDirectory = (t₂.at? p).map FileEntry.isDirectory
  at? : ∀ p, ¬ but p → t₁.at? p = t₂.at? p

namespace Alike

theorem refl (but : Place → Prop) (t : FileTree) : Alike but t t :=
  ⟨rfl, fun _ => rfl, fun _ _ => rfl⟩

theorem symm (h : Alike but t₁ t₂) : Alike but t₂ t₁ :=
  ⟨h.here.symm, fun p => (h.kind p).symm, fun p hp => (h.at? p hp).symm⟩

theorem trans (h : Alike but t₁ t₂) (h' : Alike but t₂ t₃) : Alike but t₁ t₃ :=
  ⟨h.here.trans h'.here, fun p => (h.kind p).trans (h'.kind p),
    fun p hp => (h.at? p hp).trans (h'.at? p hp)⟩

theorem entries (h : Alike but t₁ t₂) (p : Place) :
    (t₁.at? p = none ∧ t₂.at? p = none) ∨
    (t₁.at? p = some .directory ∧ t₂.at? p = some .directory) ∨
    ∃ b₁ b₂, t₁.at? p = some (.file b₁) ∧ t₂.at? p = some (.file b₂) ∧ (¬ but p → b₁ = b₂) := by
  have hkind := h.kind p
  have hat := h.at? p
  rcases h₁ : t₁.at? p with _ | (_ | b₁) <;> rcases h₂ : t₂.at? p with _ | (_ | b₂) <;>
    simp_all [FileEntry.isDirectory]

theorem put (h : Alike but t₁ t₂) {p : Place} {e₁ e₂ : FileEntry}
    (hkind : e₁.isDirectory = e₂.isDirectory) (heq : ¬ but p → e₁ = e₂) :
    Alike but (t₁.put p e₁) (t₂.put p e₂) := by
  refine ⟨h.here, fun q => ?_, fun q hq => ?_⟩
  · by_cases hqp : q = p
    · subst hqp
      rw [at?_put_self, at?_put_self, Option.map_some, Option.map_some, hkind]
    · rw [at?_put_of_ne _ _ hqp, at?_put_of_ne _ _ hqp, h.kind q]
  · by_cases hqp : q = p
    · subst hqp
      rw [at?_put_self, at?_put_self, heq hq]
    · rw [at?_put_of_ne _ _ hqp, at?_put_of_ne _ _ hqp, h.at? q hq]

theorem of_put {t : FileTree} {p : Place} {bytes : ByteArray} (h : t.at? p = some (.file bytes))
    (hp : but p) (more : ByteArray) : Alike but t (t.put p (.file more)) := by
  refine ⟨rfl, fun q => ?_, fun q hq => ?_⟩
  · by_cases hqp : q = p
    · subst hqp
      rw [h, at?_put_self]
      rfl
    · rw [at?_put_of_ne _ _ hqp]
  · rw [at?_put_of_ne]
    rintro rfl
    exact hq hp

theorem kept (h : Alike but t₁ t₂) (made : Place → Prop) : Kept but made t₁ t₂ :=
  ⟨h.here.symm, fun p hp => .inl (h.at? p hp).symm⟩

theorem start (h : Alike but t₁ t₂) (path : String) : t₁.start path = t₂.start path := by
  rw [FileTree.start, FileTree.start, h.here]

theorem place (h : Alike but t₁ t₂) (path : String) : t₁.place path = t₂.place path :=
  congrArg (fun here => Path.place here path) h.here

end Alike

/-- The same target, but for the bytes of a file. -/
inductive Target.Alike (but : Place → Prop) : Target → Target → Prop where
  | directory (p : Place) : Alike but (.directory p) (.directory p)
  | file {p : Place} {b₁ b₂ : ByteArray} (h : ¬ but p → b₁ = b₂) :
    Alike but (.file p b₁) (.file p b₂)
  | vacant (p : Place) : Alike but (.vacant p) (.vacant p)

theorem Alike.follow (h : Alike but t₁ t₂) (p : Place) (names : List String) :
    SameEnd (Target.Alike but) (t₁.follow p names) (t₂.follow p names) := by
  induction names generalizing p with
  | nil => exact .done (.directory p)
  | cons name rest ih =>
    rw [follow_cons, follow_cons]
    split_ifs
    · exact ih p
    · exact ih p.dropLast
    · exact .fault _
    · rw [enter.eq_def, enter.eq_def]
      rcases h.entries (p ++ [name]) with ⟨h₁, h₂⟩ | ⟨h₁, h₂⟩ | ⟨b₁, b₂, h₁, h₂, hb⟩
      · rw [h₁, h₂]
        cases rest with
        | nil => exact .done (.vacant _)
        | cons _ _ => exact .fault _
      · rw [h₁, h₂]
        exact ih _
      · rw [h₁, h₂]
        cases rest with
        | nil => exact .done (.file hb)
        | cons _ _ => exact .fault _

theorem Alike.find (h : Alike but t₁ t₂) (path : String) :
    SameEnd (Target.Alike but) (t₁.find path) (t₂.find path) := by
  refine (SameEnd.of_eq _).bind fun _ _ _ => ?_
  rw [h.start]
  split
  · exact .fault _
  · exact h.follow _ _

theorem Alike.read (h : Alike but t₁ t₂) {path : String} (hpath : ¬ but (t₁.place path)) :
    t₁.read path = t₂.read path := by
  have hfind := h.find path
  rw [FileTree.read, FileTree.read]
  generalize hx : t₁.find path = x at hfind ⊢
  generalize t₂.find path = y at hfind ⊢
  cases hfind with
  | fault _ => rfl
  | done htarget =>
    cases htarget with
    | directory _ => rfl
    | vacant _ => rfl
    | file hb =>
      obtain ⟨rfl, -⟩ := find_isAt hx
      rw [hb hpath]

theorem Alike.fill (h : Alike but t₁ t₂) (path : String) (f : ByteArray → ByteArray)
    {a b : Target} (hab : Target.Alike but a b) :
    SameEnd (Alike but) (t₁.fill path f a) (t₂.fill path f b) := by
  rw [FileTree.fill, FileTree.fill]
  cases hab with
  | directory p => exact .fault _
  | file hb =>
    simp only [Target.slot?]
    split
    · exact .fault _
    · exact .done (h.put rfl fun hp => by rw [hb hp])
  | vacant p =>
    simp only [Target.slot?]
    split
    · exact .fault _
    · exact .done (h.put rfl fun _ => rfl)

theorem Alike.change (h : Alike but t₁ t₂) (path : String) (f : ByteArray → ByteArray) :
    SameEnd (Alike but) (t₁.change path f) (t₂.change path f) := by
  rw [change_eq, change_eq, h.start]
  refine (SameEnd.of_eq _).bind fun _ _ _ => ?_
  split
  · exact .fault _
  · exact (h.follow _ _).bind fun _ _ => h.fill path f

theorem Alike.makeFrom (h : Alike but t₁ t₂) (p : Place) (names : List String) :
    SameEnd (Alike but) (t₁.makeFrom p names) (t₂.makeFrom p names) := by
  induction names generalizing t₁ t₂ p with
  | nil => exact .done h
  | cons name rest ih =>
    rw [FileTree.makeFrom, FileTree.makeFrom]
    split
    · exact ih h p
    split
    · exact ih h p.dropLast
    split
    · exact .fault _
    rcases h.entries (p ++ [name]) with ⟨h₁, h₂⟩ | ⟨h₁, h₂⟩ | ⟨b₁, b₂, h₁, h₂, -⟩
    · rw [h₁, h₂]
      exact ih (h.put rfl fun _ => rfl) _
    · rw [h₁, h₂]
      exact ih h _
    · rw [h₁, h₂]
      exact .fault _

theorem Alike.makeDirectories (h : Alike but t₁ t₂) (path : String) :
    SameEnd (Alike but) (t₁.makeDirectories path) (t₂.makeDirectories path) := by
  rw [FileTree.makeDirectories, FileTree.makeDirectories, h.start]
  exact (SameEnd.of_eq _).bind fun _ _ _ => h.makeFrom _ _

end FileTree

end GraphShape
