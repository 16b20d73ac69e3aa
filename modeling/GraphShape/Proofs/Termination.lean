import GraphShape.Proofs.Stopping
import Mathlib.Data.Nat.Find

/-!
# Bounds that no walk feels

The nesting and the rounds of a conversion are bounded. The key fact is that a walk which returns
within some bound returns the same within every bound that has room for the lists and for a chain
of different unions, so a bound only tells whether a walk returns at all.
-/

namespace GraphShape

/-- The bound was not used up. -/
def Returns {α : Type} (outcome : Except Stop α) : Prop := outcome ≠ .error .tooDeep

/-- The object type that an event says is being walked. -/
def Event.walkedType? : Event → Option String
  | converting typeName => some typeName
  | _ => none

/-- The object types that were walked, one for each round. -/
def walkedTypes (events : List Event) : List String := events.filterMap Event.walkedType?

@[simp] theorem walkedTypes_nil : walkedTypes [] = [] := rfl

@[simp] theorem walkedTypes_converted (count : Nat) : walkedTypes [.converted count] = [] := rfl

theorem EndsIn.returns {α : Type} {outcome : Except Stop α} {problem : Option ConversionProblem}
    (h : EndsIn outcome problem) : Returns outcome := by
  intro hdeep
  obtain ⟨p, -, hp⟩ := (h.error_iff _).mp hdeep
  cases hp

theorem returns_map_iff {α β : Type} (f : α → β) {outcome : Except Stop α} :
    Returns (outcome.map f) ↔ Returns outcome := by
  unfold Returns
  cases outcome <;> simp [Except.map]

namespace Walk

variable {α β : Type}

theorem returns_of_bind {x : Walk α} {f : α → Walk β} (h : Returns (x >>= f).outcome) :
    Returns x.outcome := by
  intro hx
  apply h
  show (Walk.bind x f).outcome = _
  rw [Walk.bind, hx]

theorem bind_settled {x y : Walk α} {f g : α → Walk β} (h : Returns (x >>= f).outcome)
    (hx : y = x) (hf : ∀ a, Returns (f a).outcome → g a = f a) : y >>= g = x >>= f := by
  subst hx
  cases hy : y.outcome with
  | error e =>
    show Walk.bind y g = Walk.bind y f
    rw [Walk.bind, Walk.bind, hy]
  | ok a =>
    rw [bind_of_ok f hy] at h
    rw [bind_of_ok f hy, bind_of_ok g hy, hf a h]

theorem each_settled {f g : α → Walk β} {xs : List α} (h : Returns (each f xs).outcome)
    (hf : ∀ x ∈ xs, Returns (f x).outcome → g x = f x) : each g xs = each f xs := by
  induction xs with
  | nil => rfl
  | cons x rest ih =>
    rw [each_cons] at h ⊢
    rw [each_cons]
    refine bind_settled h (hf x List.mem_cons_self (returns_of_bind h)) ?_
    intro b hb
    rw [ih (returns_of_bind hb) (fun y hy => hf y (List.mem_cons_of_mem _ hy))]

theorem mem_events_bind {x : Walk α} {f : α → Walk β} {e : Event} (h : e ∈ (x >>= f).events) :
    e ∈ x.events ∨ ∃ a, e ∈ (f a).events := by
  cases hx : x.outcome with
  | error s =>
    change e ∈ (Walk.bind x f).events at h
    rw [Walk.bind, hx] at h
    exact Or.inl h
  | ok a =>
    rw [bind_of_ok f hx, List.mem_append] at h
    exact h.imp_right (fun h => ⟨a, h⟩)

theorem mem_events_each {f : α → Walk β} {xs : List α} {e : Event} (h : e ∈ (each f xs).events) :
    ∃ x ∈ xs, e ∈ (f x).events := by
  induction xs with
  | nil => simp [each, Walk.pure] at h
  | cons x rest ih =>
    rw [each_cons] at h
    rcases mem_events_bind h with hx | ⟨b, h⟩
    · exact ⟨x, List.mem_cons_self, hx⟩
    · rcases mem_events_bind h with h | ⟨bs, h⟩
      · obtain ⟨y, hy, he⟩ := ih h
        exact ⟨y, List.mem_cons_of_mem _ hy, he⟩
      · simp [pure_eq] at h

end Walk

namespace Converter

variable {c : Converter} {d depth : Nat}

/-! ## Type references -/

theorem fragment_list (c : Converter) (depth : Nat) (item : TypeRef) (b : Bool) :
    c.fragment (depth + 1) (.list item b) =
      c.fragment depth item >>= fun s => pure (Schema.array (Schema.item item.nonNull s)) := rfl

theorem fragment_union {n u : String} {members : List String}
    (h : c.types.get? n = some (.union u members)) (depth : Nat) (b : Bool) :
    c.fragment (depth + 1) (.named n b) =
      Walk.each (fun m => c.fragment depth (.named m false)) members >>=
        fun choices => pure (Schema.oneOf choices) := by
  rw [fragment, h]

theorem fragment_other {n : String} (h : ∀ u members, c.types.get? n ≠ some (.union u members))
    (d depth : Nat) (b : Bool) :
    c.fragment (depth + 1) (.named n b) = c.fragment (d + 1) (.named n b) := by
  rw [fragment, fragment]
  cases hn : c.types.get? n with
  | none => rfl
  | some t =>
    cases t with
    | union u members => exact absurd hn (h u members)
    | _ => rfl

theorem not_returns_zero (c : Converter) (t : TypeRef) : ¬ Returns (c.fragment 0 t).outcome :=
  fun h => h rfl

theorem fragment_succ {t : TypeRef} (h : Returns (c.fragment d t).outcome) :
    c.fragment (d + 1) t = c.fragment d t := by
  induction d generalizing t with
  | zero => exact absurd h (not_returns_zero c t)
  | succ d ih =>
    cases t with
    | list item b =>
      rw [fragment_list] at h ⊢
      rw [fragment_list]
      exact Walk.bind_settled h (ih (Walk.returns_of_bind h)) (fun _ _ => rfl)
    | named n b =>
      by_cases hn : ∃ u members, c.types.get? n = some (.union u members)
      · obtain ⟨u, members, hn⟩ := hn
        rw [fragment_union hn] at h ⊢
        rw [fragment_union hn]
        refine Walk.bind_settled h ?_ (fun _ _ => rfl)
        exact Walk.each_settled (Walk.returns_of_bind h) (fun m _ hm => ih hm)
      · exact fragment_other (fun u members h => hn ⟨u, members, h⟩) _ _ b

theorem fragment_of_le {t : TypeRef} (h : Returns (c.fragment d t).outcome) (hle : d ≤ depth) :
    c.fragment depth t = c.fragment d t := by
  induction depth, hle using Nat.le_induction with
  | base => rfl
  | succ depth _ ih => rw [← ih, fragment_succ (by rwa [ih])]

theorem fragment_mark (c : Converter) (depth : Nat) (n : String) (b b' : Bool) :
    c.fragment depth (.named n b) = c.fragment depth (.named n b') := by
  cases depth <;> rfl

theorem returns_of_le {t : TypeRef} (h : Returns (c.fragment d t).outcome) (hle : d ≤ depth) :
    Returns (c.fragment depth t).outcome := by
  rwa [fragment_of_le h hle]

theorem exists_least_returns {t : TypeRef} (h : Returns (c.fragment d t).outcome) :
    ∃ k, k < d ∧ Returns (c.fragment (k + 1) t).outcome ∧
      ∀ j ≤ k, ¬ Returns (c.fragment j t).outcome := by
  classical
  have hexists : ∃ k, Returns (c.fragment k t).outcome := ⟨d, h⟩
  obtain ⟨k, hk, hleast⟩ : ∃ k, Returns (c.fragment k t).outcome ∧
      ∀ j < k, ¬ Returns (c.fragment j t).outcome :=
    ⟨Nat.find hexists, Nat.find_spec hexists, fun j => Nat.find_min hexists⟩
  have hle : k ≤ d := Nat.le_of_not_lt (fun hlt => hleast d hlt h)
  obtain ⟨k, rfl⟩ : ∃ j, k = j + 1 :=
    Nat.exists_eq_succ_of_ne_zero (fun h0 => not_returns_zero c t (h0 ▸ hk))
  exact ⟨k, hle, hk, fun j hj => hleast j (Nat.lt_succ_of_le hj)⟩

theorem fragment_below_settled (above : List String) {n : String} (hnodup : above.Nodup)
    (habove : ∀ v ∈ above,
      v ∈ Members.names c.types ∧ ¬ Returns (c.fragment d (.named v false)).outcome)
    (h : Returns (c.fragment d (.named n false)).outcome)
    (hroom : c.types.length + 1 ≤ depth + above.length) :
    c.fragment depth (.named n false) = c.fragment d (.named n false) := by
  -- The unions above a name differ from it and from each other, so a depth with room for all names
  -- of the map is enough below them.
  induction depth generalizing above n d with
  | zero =>
    have hle := (hnodup.subperm (fun v hv => (habove v hv).1)).length_le
    rw [Members.names, List.length_map] at hle
    omega
  | succ depth ih =>
    obtain ⟨k, hlt, hk, hleast⟩ := exists_least_returns h
    rw [fragment_of_le hk hlt]
    by_cases hn : ∃ u members, c.types.get? n = some (.union u members)
    · obtain ⟨u, members, hn⟩ := hn
      rw [fragment_union hn] at hk ⊢
      rw [fragment_union hn]
      refine Walk.bind_settled hk ?_ (fun _ _ => rfl)
      refine Walk.each_settled (Walk.returns_of_bind hk) ?_
      intro m _ hm
      -- One below its least depth a union does not return, but its members do.
      apply ih (n :: above) (d := k)
      · rw [List.nodup_cons]
        exact ⟨fun hmem => (habove n hmem).2 h, hnodup⟩
      · intro v hv
        rcases List.mem_cons.mp hv with rfl | hv
        · exact ⟨Members.mem_names_of_get? hn, hleast k (Nat.le_refl k)⟩
        · exact ⟨(habove v hv).1, fun hr => (habove v hv).2 (returns_of_le hr (by omega))⟩
      · exact hm
      · rw [List.length_cons]
        omega
    · exact fragment_other (fun u members h => hn ⟨u, members, h⟩) _ _ _

theorem fragment_named_settled {n : String} (h : Returns (c.fragment d (.named n false)).outcome)
    (hroom : c.types.length + 1 ≤ depth) :
    c.fragment depth (.named n false) = c.fragment d (.named n false) :=
  fragment_below_settled [] List.nodup_nil (by simp) h hroom

/-- A walk that returns within some depth returns the same within any that has room. -/
theorem fragment_settled {t : TypeRef} (h : Returns (c.fragment d t).outcome)
    (hroom : t.nesting + c.types.length + 1 ≤ depth) : c.fragment depth t = c.fragment d t := by
  induction t generalizing d depth with
  | named n b =>
    rw [TypeRef.nesting] at hroom
    rw [fragment_mark c d n b false] at h ⊢
    rw [fragment_mark c depth n b false]
    exact fragment_named_settled h (by omega)
  | list item b ih =>
    rw [TypeRef.nesting] at hroom
    obtain ⟨depth, rfl⟩ : ∃ k, depth = k + 1 := ⟨depth - 1, by omega⟩
    cases d with
    | zero => exact absurd h (not_returns_zero c _)
    | succ d =>
      rw [fragment_list] at h ⊢
      rw [fragment_list]
      exact Walk.bind_settled h (ih (Walk.returns_of_bind h) (by omega)) (fun _ _ => rfl)

/-! ## Object types -/

theorem property_settled {f : Field} (h : Returns (c.property d f).outcome)
    (hroom : f.type.nesting + c.types.length + 1 ≤ depth) : c.property depth f = c.property d f := by
  rw [property] at h ⊢
  rw [property]
  exact Walk.bind_settled h (fragment_settled (Walk.returns_of_bind h) hroom) (fun _ _ => rfl)

theorem shape_settled {o : ObjectType} (h : Returns (c.shape d o).outcome)
    (hroom : ∀ f ∈ o.fields, f.type.nesting + c.types.length + 1 ≤ depth) :
    c.shape depth o = c.shape d o := by
  rw [shape] at h ⊢
  rw [shape]
  refine Walk.bind_settled h ?_ (fun _ _ => rfl)
  exact Walk.each_settled (Walk.returns_of_bind h) (fun f hf hr => property_settled hr (hroom f hf))

/-! ## Documents -/

theorem defineAll_settled {types : TypeMap} {ds : Members Schema}
    (h : Returns (c.defineAll d types ds).outcome)
    (hroom : ∀ o ∈ types.objects, ∀ f ∈ o.fields, f.type.nesting + c.types.length + 1 ≤ depth) :
    c.defineAll depth types ds = c.defineAll d types ds := by
  induction types using TypeMap.objects_induct generalizing ds with
  | nil => rfl
  | other m rest hd ih =>
    rw [defineAll_other c d rest ds hd] at h ⊢
    rw [defineAll_other c depth rest ds hd]
    rw [TypeMap.objects_cons_other rest hd] at hroom
    exact ih h hroom
  | object name o rest ih =>
    have hshape : Returns (c.shape d o).outcome := by
      intro hs
      apply h
      simp only [defineAll, hs]
    have heq := shape_settled hshape (hroom o List.mem_cons_self)
    simp only [defineAll, heq] at h ⊢
    cases hwalk : (c.shape d o).outcome with
    | error e => rfl
    | ok s =>
      simp only [hwalk] at h ⊢
      rw [ih h (fun o ho => hroom o (List.mem_cons_of_mem _ ho))]

theorem discover_settled (hl : c.types.Lawful) {root : ObjectType} {rounds n : Nat} {p : Progress}
    (hp : c.Found d root p) (h : Returns (c.discover d n p).outcome)
    (hdepth : c.depth (some root) ≤ depth)
    (hrounds : c.types.objects.length + 2 ≤ rounds + p.definitions.length) :
    c.discover depth rounds p = c.discover d n p := by
  induction rounds generalizing n p with
  | zero =>
    have h₁ := hp.length_le
    have h₂ := hp.length_references_le hl
    omega
  | succ rounds ih =>
    cases n with
    | zero => exact absurd rfl h
    | succ n =>
      rw [discover] at h ⊢
      rw [discover]
      cases hnext : p.references[p.definitions.length]? with
      | none => rfl
      | some r =>
        obtain ⟨name, o⟩ := r
        simp only [hnext] at h ⊢
        have hstored := hp.stored _ (List.mem_of_getElem? hnext)
        have hshape : Returns (c.shape d o).outcome := by
          intro hs
          apply h
          simp only [hs]
        have hroom : ∀ f ∈ o.fields, f.type.nesting + c.types.length + 1 ≤ depth := by
          intro f hf
          have ho := TypeMap.mem_objects_of_objectFrom hl hstored.1
          have hle : f.type.nesting + c.types.length + 1 ≤ c.depth (some root) :=
            nesting_le_depth (ho.imp_left (fun heq => congrArg some heq.symm)) hf
          omega
        rw [shape_settled hshape hroom]
        cases hwalk : (c.shape d o).outcome with
        | error e => rfl
        | ok s =>
          simp only [hwalk] at h ⊢
          rw [ih (hp.advances hl ⟨name, o, s, hnext, hwalk, rfl⟩) h]
          have hnew := hp.next_not_mem hnext
          rw [← hstored.2] at hnew
          rw [Members.put_of_not_mem _ hnew, List.length_append, List.length_singleton]
          omega

/-! ## What is walked -/

theorem scalar_reports {n : String} {e : Event} (h : e ∈ (c.scalar n).events) :
    primitiveTypes.get? n = none ∧ (e = .scalarMissing n ∨ e = .scalarUnconstrained n) := by
  rw [scalar_eq, Option.mem_toList] at h
  unfold scalarReport? at h
  split at h
  · cases h
  · rename_i hprimitive _
    exact ⟨hprimitive, Or.inr (Option.some.inj h).symm⟩
  · rename_i hprimitive _
    split at h
    · cases h
    · exact ⟨hprimitive, Or.inl (Option.some.inj h).symm⟩

theorem scalar_event {n : String} {e : Event} (h : e ∈ (c.scalar n).events) : e.walkedType? = none := by
  rcases scalar_reports h with ⟨-, rfl | rfl⟩ <;> rfl

theorem fragment_reports {t : TypeRef} {e : Event} (h : e ∈ (c.fragment depth t).events) :
    ∃ n, e ∈ (c.scalar n).events := by
  induction depth generalizing t with
  | zero => cases h
  | succ depth ih =>
    cases t with
    | list item b =>
      rw [fragment_list] at h
      rcases Walk.mem_events_bind h with h | ⟨s, h⟩
      · exact ih h
      · cases h
    | named n b =>
      rw [fragment] at h
      cases hn : c.types.get? n with
      | none =>
        rw [hn] at h
        cases h
      | some t =>
        simp only [hn] at h
        cases t with
        | union u members =>
          rcases Walk.mem_events_bind h with h | ⟨s, h⟩
          · obtain ⟨m, -, h⟩ := Walk.mem_events_each h
            exact ih h
          · cases h
        | object o =>
          rcases Walk.mem_events_bind h with h | ⟨s, h⟩ <;> cases h
        | scalar u => exact ⟨n, h⟩
        | _ => cases h

theorem shape_reports {o : ObjectType} {e : Event} (h : e ∈ (c.shape depth o).events) :
    ∃ n, e ∈ (c.scalar n).events := by
  rw [shape] at h
  rcases Walk.mem_events_bind h with h | ⟨s, h⟩
  · obtain ⟨f, -, h⟩ := Walk.mem_events_each h
    rw [property] at h
    rcases Walk.mem_events_bind h with h | ⟨s, h⟩
    · exact fragment_reports h
    · cases h
  · cases h

theorem shape_event {o : ObjectType} {e : Event} (h : e ∈ (c.shape depth o).events) :
    e.walkedType? = none := by
  obtain ⟨n, he⟩ := shape_reports h
  exact scalar_event he

theorem walkedTypes_round (c : Converter) (depth : Nat) (o : ObjectType) (events : List Event) :
    walkedTypes (.converting o.name :: ((c.shape depth o).events ++ events)) =
      o.name :: walkedTypes events := by
  have hwalk : walkedTypes (c.shape depth o).events = [] :=
    List.filterMap_eq_nil_iff.mpr (fun _ he => shape_event he)
  show o.name :: walkedTypes ((c.shape depth o).events ++ events) = _
  rw [walkedTypes, List.filterMap_append]
  simp only [walkedTypes] at hwalk ⊢
  rw [hwalk, List.nil_append]

theorem discover_walked (hl : c.types.Lawful) {root : ObjectType} {n : Nat} {p : Progress}
    (hp : c.Found depth root p) :
    (Members.names p.definitions ++ walkedTypes (c.discover depth n p).events).Nodup ∧
      ∀ k ∈ walkedTypes (c.discover depth n p).events,
        k ∈ root.name :: c.types.objects.map ObjectType.name := by
  have hdone : (Members.names p.definitions).Nodup := by
    rw [hp.names_definitions]
    exact hp.nodup.sublist (List.take_sublist _ _)
  induction n generalizing p with
  | zero => simpa [discover] using hdone
  | succ n ih =>
    rw [discover]
    cases hnext : p.references[p.definitions.length]? with
    | none => simpa using hdone
    | some r =>
      obtain ⟨name, o⟩ := r
      obtain ⟨hobject, hname⟩ := hp.stored _ (List.mem_of_getElem? hnext)
      have hnew := hp.next_not_mem hnext
      simp only at hobject hname hnew
      rw [← hname] at hnew
      have hmem : o.name ∈ root.name :: c.types.objects.map ObjectType.name := by
        rcases TypeMap.mem_objects_of_objectFrom hl hobject with rfl | ho
        · exact List.mem_cons_self
        · exact List.mem_cons_of_mem _ (List.mem_map_of_mem ho)
      cases hwalk : (c.shape depth o).outcome with
      | error e =>
        have hround := walkedTypes_round c depth o []
        rw [List.append_nil] at hround
        simp only [hwalk, hround, walkedTypes_nil, List.forall_mem_singleton]
        refine ⟨List.nodup_append.mpr ⟨hdone, by simp, ?_⟩, hmem⟩
        rintro a ha b hb rfl
        exact hnew (List.mem_singleton.mp hb ▸ ha)
      | ok s =>
        have hstep : c.Advances depth p _ := ⟨name, o, s, hnext, hwalk, rfl⟩
        have hq := hp.advances hl hstep
        have hnames : Members.names (p.definitions.put o.name s) =
            Members.names p.definitions ++ [o.name] := by
          rw [Members.put_of_not_mem _ hnew, Members.names_append]
          rfl
        obtain ⟨hnodup, hall⟩ := ih hq (by
          rw [hq.names_definitions]
          exact hq.nodup.sublist (List.take_sublist _ _))
        simp only [hwalk, walkedTypes_round]
        rw [hnames, List.append_assoc, List.singleton_append] at hnodup
        exact ⟨hnodup, List.forall_mem_cons.mpr ⟨hmem, hall⟩⟩

/-! ## Unions of object types -/

theorem returns_of_unionsOfObjects (hu : UnionsOfObjects c.types) (t : TypeRef) :
    Returns (c.fragment (t.nesting + 2) t).outcome := by
  induction t with
  | list item b ih =>
    rw [TypeRef.nesting, show item.nesting + 1 + 2 = item.nesting + 2 + 1 by omega, fragment_list]
    intro h
    exact ih (Walk.error_of_bind_pure h)
  | named n b =>
    rw [TypeRef.nesting]
    by_cases hn : ∃ u members, c.types.get? n = some (.union u members)
    · obtain ⟨u, members, hn⟩ := hn
      rw [fragment_union hn]
      intro h
      obtain ⟨m, hm, hdeep⟩ := Walk.error_of_each (Walk.error_of_bind_pure h)
      obtain ⟨o, ho⟩ := hu n u members hn m hm
      simp only [fragment, ho] at hdeep
      cases hdeep
    · have hother := fun u members h => hn ⟨u, members, h⟩
      rw [fragment_other hother c.types.length 1 b]
      exact (fragment_named_endsIn (TypeMap.grounded_of_not_union hother) (Nat.le_refl _) b).returns

/-! ## Unions that contain themselves -/

theorem not_returns_of_self {n u : String} {members : List String}
    (hn : c.types.get? n = some (.union u (n :: members))) (depth : Nat) {t : TypeRef}
    (ht : t.innerName = n) : ¬ Returns (c.fragment depth t).outcome := by
  induction depth generalizing t with
  | zero => exact not_returns_zero c t
  | succ depth ih =>
    intro h
    cases t with
    | list item b =>
      rw [fragment_list] at h
      exact ih (t := item) ht (Walk.returns_of_bind h)
    | named k b =>
      obtain rfl : k = n := ht
      -- The first member is walked first, and it is the union again.
      rw [fragment_union hn, Walk.each_cons] at h
      exact ih rfl (Walk.returns_of_bind (Walk.returns_of_bind h))

theorem shape_not_returns_of_self {n u : String} {members : List String}
    (hn : c.types.get? n = some (.union u (n :: members))) (depth : Nat) {root : ObjectType}
    {f : Field} {fields : List Field} (hfields : root.fields = f :: fields)
    (hf : f.type.innerName = n) : ¬ Returns (c.shape depth root).outcome := by
  intro h
  rw [shape, hfields, Walk.each_cons] at h
  have hproperty := Walk.returns_of_bind (Walk.returns_of_bind h)
  rw [property] at hproperty
  exact not_returns_of_self hn depth hf (Walk.returns_of_bind hproperty)

/-! ## Conversions within bounds -/

/-- The document of a root with a bound on the nesting and one on the rounds. -/
def convertWithin (c : Converter) (root : ObjectType) (depth rounds : Nat) : Traced Schema :=
  let run := c.discover depth rounds ⟨References.seeded root, []⟩
  ⟨run.events, run.outcome.map (fun progress => assemble progress.definitions)⟩

/-- The document of the whole map with a bound on the nesting. -/
def definitionsWithin (c : Converter) (depth : Nat) : Traced Schema :=
  let run := c.defineAll depth c.types []
  ⟨run.events, run.outcome.map (fun ds => .keywords [(definitionsKey, definitionsJson ds)])⟩

theorem convert_eq_within (c : Converter) (root : ObjectType) :
    c.convert root = c.convertWithin root (c.depth (some root)) (c.types.objects.length + 2) := rfl

theorem convertWithin_settled (hl : c.types.Lawful) {root : ObjectType} {n rounds : Nat}
    (h : Returns (c.convertWithin root d n).outcome) (hdepth : c.depth (some root) ≤ depth)
    (hrounds : c.types.objects.length + 2 ≤ rounds) :
    c.convertWithin root depth rounds = c.convertWithin root d n := by
  have hrun := (returns_map_iff _).mp h
  rw [convertWithin, discover_settled hl (found_seeded c d root) hrun hdepth hrounds]
  rfl

theorem definitionsWithin_settled (h : Returns (c.definitionsWithin d).outcome)
    (hdepth : c.depth none ≤ depth) : c.definitionsWithin depth = c.definitionsWithin d := by
  have hrun := (returns_map_iff _).mp h
  have hroom : ∀ o ∈ c.types.objects, ∀ f ∈ o.fields,
      f.type.nesting + c.types.length + 1 ≤ depth := by
    intro o ho f hf
    have hle : f.type.nesting + c.types.length + 1 ≤ c.depth none :=
      nesting_le_depth (Or.inr ho) hf
    omega
  rw [definitionsWithin, defineAll_settled hrun hroom]
  rfl

theorem convertWithin_walked (hl : c.types.Lawful) (root : ObjectType) (depth rounds : Nat) :
    (walkedTypes (c.convertWithin root depth rounds).events).Nodup ∧
      (walkedTypes (c.convertWithin root depth rounds).events).length ≤
        1 + c.types.objects.length := by
  obtain ⟨hnodup, hall⟩ := discover_walked (n := rounds) hl (found_seeded c depth root)
  rw [Members.names_nil, List.nil_append] at hnodup
  refine ⟨hnodup, ?_⟩
  have hle := (hnodup.subperm hall).length_le
  rw [List.length_cons, List.length_map] at hle
  simp only [convertWithin]
  omega

theorem convertWithin_not_returns {root : ObjectType} {depth : Nat}
    (h : ¬ Returns (c.shape depth root).outcome) (rounds : Nat) :
    ¬ Returns (c.convertWithin root depth rounds).outcome := by
  intro hr
  apply h
  intro hdeep
  apply (returns_map_iff _).mp hr
  cases rounds with
  | zero => rfl
  | succ rounds => simp [discover, References.seeded, hdeep]

/-- **Termination.** Where no union contains itself, all conversions return. -/
theorem conversions_return {c : Converter} (hl : c.types.Lawful) :
    -- No greater bound changes anything.
    (c.types.Acyclic →
      (Returns c.definitions.outcome ∧
        ∀ depth, c.depth none ≤ depth → c.definitionsWithin depth = c.definitions) ∧
      ∀ root, Returns (c.convert root).outcome ∧
        ∀ depth rounds, c.depth (some root) ≤ depth → c.types.objects.length + 2 ≤ rounds →
          c.convertWithin root depth rounds = c.convert root) ∧
    -- Each round walks another type.
    (∀ root depth rounds, (walkedTypes (c.convertWithin root depth rounds).events).Nodup ∧
      (walkedTypes (c.convertWithin root depth rounds).events).length ≤
        1 + c.types.objects.length) ∧
    -- Lists and two levels more are enough where unions are of object types.
    (UnionsOfObjects c.types → ∀ t depth, t.nesting + 2 ≤ depth →
      Returns (c.fragment depth t).outcome ∧
        c.fragment depth t = c.fragment (t.nesting + 2) t) ∧
    -- Nothing is enough for a union that is its own first member.
    ∀ n u members root f fields, c.types.get? n = some (.union u (n :: members)) →
      root.fields = f :: fields → f.type.innerName = n →
      ∀ depth, ¬ Returns (c.shape depth root).outcome ∧
        ∀ rounds, ¬ Returns (c.convertWithin root depth rounds).outcome := by
  refine ⟨?_, convertWithin_walked hl, ?_, ?_⟩
  · intro ha
    have hall := (definitions_endsIn ha).returns
    refine ⟨⟨hall, fun depth hdepth => definitionsWithin_settled hall hdepth⟩, ?_⟩
    intro root
    have hroot := (convert_endsIn hl ha root).returns
    exact ⟨hroot, fun depth rounds hdepth hrounds => convertWithin_settled hl hroot hdepth hrounds⟩
  · intro hu t depth hdepth
    have hreturns := returns_of_unionsOfObjects hu t
    exact ⟨returns_of_le hreturns hdepth, fragment_of_le hreturns hdepth⟩
  · intro n u members root f fields hn hfields hf depth
    have hshape := shape_not_returns_of_self hn depth hfields hf
    exact ⟨hshape, convertWithin_not_returns hshape⟩

def loopType : ObjectType := ⟨"Query", none, [⟨"loop", .list (.named "Loop" true) false, none⟩]⟩

def loopTypes : TypeMap := TypeMap.ofDefs
  [.object loopType, .union "Loop" ["Loop", "Leaf"], .object ⟨"Leaf", none, []⟩]

theorem conversions_return_books : bookTypes.Lawful ∧ bookTypes.Acyclic ∧
    bookTypes.Edge lastPages "Page" "Page" ∧ Returns (bookConverter.convert lastPages).outcome ∧
    Returns bookConverter.definitions.outcome ∧
    Returns (bookConverter.fragment 4 (.list (.list (.named "Part" false) true) false)).outcome ∧
    loopTypes.Lawful ∧ ∀ depth, ¬ Returns ((plain loopTypes Policy.never).shape depth loopType).outcome := by
  have hl : bookTypes.Lawful := TypeMap.ofDefs_lawful _
  have hu : UnionsOfObjects bookTypes := unionsOfObjects_of_all (by decide)
  obtain ⟨hreturns, -, hdirect, -⟩ := conversions_return (c := bookConverter) hl
  obtain ⟨⟨hall, -⟩, hroot⟩ := hreturns hu.acyclic
  have hedge : bookTypes.Edge lastPages "Page" "Page" :=
    ⟨_, rfl, ⟨"next", .named "Page" false, none⟩, List.mem_cons_self, .object rfl⟩
  have hlist := hdirect hu (.list (.list (.named "Part" false) true) false) 4 (by decide)
  have hloop : loopTypes.Lawful := TypeMap.ofDefs_lawful _
  obtain ⟨-, -, -, hself⟩ := conversions_return (c := plain loopTypes Policy.never) hloop
  refine ⟨hl, hu.acyclic, hedge, (hroot lastPages).1, hall, hlist.1, hloop, ?_⟩
  exact fun depth => (hself "Loop" "Loop" ["Leaf"] loopType _ [] rfl rfl rfl depth).1

end Converter

end GraphShape
