import GraphShape.Proofs.LogOpening
import GraphShape.Proofs.Precedence
import Mathlib.Tactic.ByContra

/-!
# A whole document or nothing

A run writes a document as its last step, and only if everything before went well. The key fact is
that up to then nothing has changed but the log, so a failing run leaves the output as it was, and
what is logged has no part in the outcome.
-/

namespace GraphShape.CommandLine

/-! ## Reading the configuration -/

section Loading

variable {α β : Type}

/-- Nothing is changed, whatever comes of it. -/
def Run.Still (r : Run (StateM Scene) α) : Prop := ∀ s, (r.onScene s).2 = s

theorem Run.Still.bind {r : Run (StateM Scene) α} {f : α → Run (StateM Scene) β} (h : r.Still)
    (hf : ∀ a, (f a).Still) : (r >>= f).Still := by
  intro s
  have hsame := h s
  rcases hr : r.onScene s with ⟨e | a, s'⟩
  all_goals
    rw [hr] at hsame
    obtain rfl : s' = s := hsame
  · rw [Run.bind_of_error hr]
  · rw [Run.bind_of_ok hr]
    exact hf a s'

theorem firstFile_still (candidates : List (String × Place)) :
    (Run.act (firstFile Host.ofScene candidates)).Still := by
  intro s
  induction candidates with
  | nil => rfl
  | cons candidate rest ih =>
    change ((firstFile Host.ofScene (candidate :: rest)).run s).2 = s
    have hisFile : (Host.ofScene.isFile candidate.1).run s = (s.files.isFile candidate.1, s) := rfl
    rw [firstFile, run_bind_eq hisFile]
    split
    · rfl
    · exact ih

theorem readConfigFile_still (path : String) : (readConfigFile Host.ofScene path).Still := by
  refine Run.Still.bind (fun _ => rfl) fun here => (firstFile_still _).bind fun found => ?_
  cases found with
  | none => exact fun _ => rfl
  | some found => exact Run.Still.bind (fun _ => rfl) fun _ _ => rfl

theorem readConfig_still (environment : Environment) (path : Option String) :
    (readConfig Host.ofScene environment path).Still := by
  cases path with
  | none => exact Run.Still.bind (fun _ => rfl) fun _ _ => rfl
  | some path => exact (readConfigFile_still path).bind fun _ _ => rfl

end Loading

/-- What a call leaves: its outcome, and the scene after it. -/
def runOn (environment : Environment) (words : List String) (s : Scene) : Outcome × Scene :=
  (Program.convert.run Host.ofScene environment words).run s

/-- A call asks for a conversion or a list, and its configuration can be read. -/
def Loads (environment : Environment) (words : List String) (s : Scene) (a : Arguments)
    (c : Config) : Prop :=
  Request.ofArguments words = .ok (.convert a) ∧
    ((readConfig Host.ofScene environment a.config).onScene s).1 = .ok c

variable {environment environment₁ environment₂ : Environment} {words : List String} {s : Scene}
  {a : Arguments} {c : Config}

/-- Prints a list, or delivers a document. -/
def finish {m : Type → Type} [Monad m] (host : Host m) (c : Config) : String ⊕ Schema → Run m String
  | .inl text => pure text
  | .inr document => deliver host c document

theorem follow_eq (environment : Environment) (a : Arguments) :
    follow Host.ofScene environment a =
      readConfig Host.ofScene environment a.config >>= fun c =>
        Run.act (openLogger Host.ofScene environment c.logging) >>= fun l =>
          prepare Host.ofScene l c a.listTypes >>= finish Host.ofScene c := by
  rw [follow]
  refine congrArg _ (funext fun c => congrArg _ (funext fun l => ?_))
  simp only [prepare, bind_assoc]
  refine congrArg _ (funext fun _ => congrArg _ (funext fun types => ?_))
  split
  · simp only [pure_bind, finish]
  · simp only [bind_assoc, pure_bind, finish]

def conclude (p : Except Failure String × Scene) : Outcome × Scene := (Outcome.ofResult p.1, p.2)

theorem runOn_of_request (h : Request.ofArguments words = .ok (.convert a)) :
    runOn environment words s = conclude ((follow Host.ofScene environment a).onScene s) := by
  have hrun : (run Host.ofScene environment words).onScene s =
      (follow Host.ofScene environment a).onScene s := by
    rw [run, h]
    rfl
  rw [← hrun]
  rfl

theorem runOn_of_loads (h : Loads environment words s a c) {l : Logger} {s' : Scene}
    (hopen : (openLogger Host.ofScene environment c.logging).run s = (l, s')) :
    runOn environment words s =
      conclude ((prepare Host.ofScene l c a.listTypes >>= finish Host.ofScene c).onScene s') := by
  obtain ⟨hwords, hload⟩ := h
  have hstill := readConfig_still environment a.config s
  rcases hr : (readConfig Host.ofScene environment a.config).onScene s with ⟨x, s₀⟩
  rw [hr] at hload hstill
  obtain rfl : x = .ok c := hload
  obtain rfl : s₀ = s := hstill
  have hact : (Run.act (openLogger Host.ofScene environment c.logging)).onScene s₀ =
      (.ok l, s') := by
    rw [Run.onScene_act, hopen]
  rw [runOn_of_request hwords, follow_eq, Run.bind_of_ok hr, Run.bind_of_ok hact]

theorem ofResult_error (f : Failure) : (Outcome.ofResult (.error f)).code ≠ 0 := by
  have hcode : f.code = 1 ∨ f.code = 2 := by
    cases f with
    | arguments p => exact .inr rfl
    | _ => exact .inl rfl
  change f.code ≠ 0
  rcases hcode with h | h
  all_goals
    rw [h]
    decide

theorem runOn_of_error (hwords : Request.ofArguments words = .ok (.convert a)) {f : Failure}
    (h : ((readConfig Host.ofScene environment a.config).onScene s).1 = .error f) :
    runOn environment words s = conclude (.error f, s) := by
  have hstill := readConfig_still environment a.config s
  rcases hr : (readConfig Host.ofScene environment a.config).onScene s with ⟨x, s₀⟩
  rw [hr] at h hstill
  obtain rfl : x = .error f := h
  obtain rfl : s₀ = s := hstill
  rw [runOn_of_request hwords, follow_eq, Run.bind_of_error hr]

/-- The place of the file that is logged to. -/
def LogPlace (c : Config) (s : Scene) (p : Place) : Prop :=
  ∃ file, logFile? c.logging s.now = some file ∧ s.files.place file = p

theorem openLogger_ready {but : Place → Prop} (h : ∀ p, LogPlace c s p → but p)
    (environment : Environment) : ∃ filter s',
      (openLogger Host.ofScene environment c.logging).run s =
        (⟨filter, (opened c.logging s.now s.files).1⟩, s') ∧
      s'.now = s.now ∧ s'.files = (opened c.logging s.now s.files).2 ∧
      s.files.Kept but (LogWay c.logging s.files) s'.files ∧
      (opened c.logging s.now s.files).1.Ready but s'.files := by
  obtain ⟨hsink, hfiles, hnow⟩ := openLogger_run environment c.logging s
  rcases hopen : (openLogger Host.ofScene environment c.logging).run s with ⟨⟨filter, sink⟩, s'⟩
  rw [hopen] at hsink hfiles hnow
  obtain rfl : sink = (opened c.logging s.now s.files).1 := hsink
  obtain ⟨hkept, hready⟩ := opened_kept fun file hfile => h _ ⟨file, hfile, rfl⟩
  rw [← hfiles] at hkept hready
  exact ⟨filter, s', rfl, hnow, hfiles, hkept, hready⟩

/-- The same outcome, and the same files but for the bytes in some places. -/
def SameLeft (but : Place → Prop) (x y : Outcome × Scene) : Prop := x.1 = y.1 ∧ x.2.Alike but y.2

theorem SameLeft.refl (but : Place → Prop) (x : Outcome × Scene) : SameLeft but x x :=
  ⟨rfl, .refl but x.2⟩

open SettingTree

theorem loads_of_load (h : Config.load environment none = .ok c) (s : Scene) :
    Loads environment [] s {} c := by
  refine ⟨rfl, ?_⟩
  change (Config.load environment none).mapError (configFailure environment none) = _
  rw [h]
  rfl

end GraphShape.CommandLine
