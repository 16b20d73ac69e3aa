import GraphShape.Proofs.Runs

/-!
# Opening the log

A log in files takes a directory and a file in it. The key fact is that the file's name is no step
to another place, so the file stands in the directory, and whatever is outside of it stays as it is.
-/

namespace GraphShape.CommandLine

/-! ## The name of the log file -/

/-- The file that is logged to, when the log is in files. -/
def logFile? (g : Logging) (now : Moment) : Option String :=
  g.path.map fun directory => Path.join directory (g.rotation.fileName programName now)

/-- The sink and the files once the log is open. -/
def opened (g : Logging) (now : Moment) (t : FileTree) : Sink × FileTree :=
  match g.path with
  | none => (.console, t)
  | some directory =>
    match t.makeDirectories directory with
    | .error _ => (.console, t)
    | .ok t' =>
      let file := Path.join directory (g.rotation.fileName programName now)
      match t'.append file "" with
      | .error _ => (.console, t')
      | .ok t'' => (.file file, t'')

theorem run_bind_eq {α β : Type} {x : StateM Scene α} {s s' : Scene} {a : α} (h : x.run s = (a, s'))
    (f : α → StateM Scene β) : (x >>= f).run s = (f a).run s' := by
  rw [StateT.run_bind, h]
  rfl

theorem keep_of_ok {s : Scene} {t : FileTree} {result : Except FileFault FileTree}
    (h : result = .ok t) : s.keep result = (.ok (), { s with files := t }) := by
  rw [h]
  rfl

theorem keep_of_error {s : Scene} {fault : FileFault} {result : Except FileFault FileTree}
    (h : result = .error fault) : s.keep result = (.error fault, s) := by
  rw [h]
  rfl

theorem openSink_run (g : Logging) (s : Scene) :
    ((openSink Host.ofScene g).run s).1 = (opened g s.now s.files).1 ∧
      ((openSink Host.ofScene g).run s).2.files = (opened g s.now s.files).2 ∧
      ((openSink Host.ofScene g).run s).2.now = s.now := by
  rw [opened, openSink]
  cases g.path with
  | none => exact ⟨rfl, rfl, rfl⟩
  | some directory =>
    cases hmake : s.files.makeDirectories directory with
    | error fault =>
      have hrun : (Host.ofScene.makeDirectories directory).run s = (.error fault, s) :=
        keep_of_error hmake
      simp only [run_bind_eq hrun, hmake]
      exact ⟨rfl, rfl, rfl⟩
    | ok t' =>
      have hrun : (Host.ofScene.makeDirectories directory).run s =
          (.ok (), { s with files := t' }) := keep_of_ok hmake
      have hnow : Host.ofScene.now.run { s with files := t' } = (s.now, { s with files := t' }) :=
        rfl
      simp only [run_bind_eq hrun, run_bind_eq hnow, hmake]
      generalize Path.join directory (g.rotation.fileName programName s.now) = file
      cases happend : t'.append file "" with
      | error fault =>
        have hopen : (Host.ofScene.openLog file).run { s with files := t' } =
          (.error fault, { s with files := t' }) := keep_of_error happend
        rw [run_bind_eq hopen]
        exact ⟨rfl, rfl, rfl⟩
      | ok t'' =>
        have hopen : (Host.ofScene.openLog file).run { s with files := t' } =
          (.ok (), { s with files := t'' }) := keep_of_ok happend
        rw [run_bind_eq hopen]
        exact ⟨rfl, rfl, rfl⟩

theorem notes_run (lines : List String) (s : Scene) :
    ((lines.forM Host.ofScene.note).run s).2.files = s.files ∧
      ((lines.forM Host.ofScene.note).run s).2.now = s.now := by
  induction lines generalizing s with
  | nil => exact ⟨rfl, rfl⟩
  | cons line lines ih => exact ih (s.tell line)

theorem openLogger_run (environment : Environment) (g : Logging) (s : Scene) :
    ((openLogger Host.ofScene environment g).run s).1.sink = (opened g s.now s.files).1 ∧
      ((openLogger Host.ofScene environment g).run s).2.files = (opened g s.now s.files).2 ∧
      ((openLogger Host.ofScene environment g).run s).2.now = s.now := by
  obtain ⟨hsink, hfiles, hnow⟩ := openSink_run g s
  rcases hrun : (openSink Host.ofScene g).run s with ⟨sink, s'⟩
  rw [hrun] at hsink hfiles hnow
  rw [openLogger, run_bind_eq hrun]
  refine ⟨hsink, ?_, ?_⟩
  · exact (notes_run _ s').1.trans hfiles
  · exact (notes_run _ s').2.trans hnow

/-! ## What the log leaves alone -/

/-- Where directories may have been made for the log. -/
def LogWay (g : Logging) (t : FileTree) (p : Place) : Prop :=
  ∃ directory, g.path = some directory ∧
    (".." ∉ Path.names directory → p <+: t.place directory)

section Opened

variable {but : Place → Prop} {g : Logging} {now : Moment} {t t₁ t₂ : FileTree}

theorem opened_kept (h : ∀ file, logFile? g now = some file → but (t.place file)) :
    t.Kept but (LogWay g t) (opened g now t).2 ∧
      (opened g now t).1.Ready but (opened g now t).2 := by
  rw [opened]
  cases hpath : g.path with
  | none => exact ⟨.refl _ _ _, trivial⟩
  | some directory =>
    have hbut : but (t.place (Path.join directory (g.rotation.fileName programName now))) := by
      apply h
      rw [logFile?, hpath]
      rfl
    simp only
    generalize Path.join directory (g.rotation.fileName programName now) = file at hbut ⊢
    cases hmake : t.makeDirectories directory with
    | error fault => exact ⟨.refl _ _ _, trivial⟩
    | ok t' =>
      have hkept : t.Kept but (LogWay g t) t' :=
        (FileTree.makeDirectories_kept but hmake).mono fun p hp => ⟨directory, hpath, hp⟩
      simp only
      cases happend : t'.append file "" with
      | error fault => exact ⟨hkept, trivial⟩
      | ok t'' =>
        obtain ⟨-, rfl, hholds⟩ := FileTree.change_ok happend
        rw [← hkept.place] at hbut
        exact ⟨hkept.trans (.put_file hbut _), hbut, _, FileTree.at?_put_self _ _ _, hholds _⟩

end Opened

end GraphShape.CommandLine
