import WeakIdentity.Proofs.Session.Lifetimes
import WeakIdentity.Proofs.World.Commute

/-! Calls that leave no trace. A lookup, an observation of a registered object, a call that finds
nothing to remove and a call that is refused all leave the session as it was, so that the rest of a
run does not depend on them. -/

namespace WeakIdentity

namespace World

variable {w : World} {strong weak : Multiset Object} {n : Nat} {o : Object}

/-- To observe an object that has an entry changes nothing, however full the table is. -/
theorem observe_of_registered (sound : w.Sound strong weak) (live : w.heap.isLive o = true)
    (registered : o ∈ (w.registry n).tokens) : (w.observe n o).1 = w := by
  cases known : w.idOf n o with
  | none =>
    have reserved := sound.counted.reserved_of_live live
    exact absurd registered ((sound.counted.idOf_eq_none reserved).mp known)
  | some id => rw [observe_of_known known, apply_same]

theorem forget_of_unregistered (sound : w.Sound strong weak) (live : w.heap.isLive o = true)
    (missing : o ∉ (w.registry n).tokens) : (w.forget n o).1 = w := by
  have reserved := sound.counted.reserved_of_live live
  rw [forget_of_unknown ((sound.counted.idOf_eq_none reserved).mpr missing), apply_same]

theorem tryObserve_of_dead {weak : Option Object} (dead : ∀ o ∈ weak, w.heap.isLive o = false)
    (n : Nat) : w.tryObserve n weak = (w, .error .dangling) := by
  cases weak with
  | none => rfl
  | some o => simp [tryObserve, upgrade?, dead o rfl]

end World

namespace Session

/-- Whether a registry has an entry for an object. -/
def registers (s : Session) (name : RegistryName) (o : Object) : Bool :=
  (s.registryNumber? name).any fun n => (s.world.registry n).tokens.contains o

/-- Whether a document is refused because it cannot be read as options, or for what they are. -/
def rejects : Option Json.Value → Bool
  | none => false
  | some document =>
    match Options.ofJson document with
    | .error _ => true
    | .ok options => !options.validate.isOk

theorem configure_of_rejects {options : Option Json.Value} (h : rejects options = true)
    (alloc : Allocator) : ∃ refusal, configure alloc options = .error refusal := by
  cases options with
  | none => cases h
  | some document =>
    simp only [rejects] at h
    simp only [configure]
    cases read : Options.ofJson document with
    | error error => exact ⟨_, rfl⟩
    | ok chosen =>
      rw [read] at h
      cases valid : chosen.validate with
      | error fault =>
        simp only [Registry.withOptions, valid]
        exact ⟨_, rfl⟩
      | ok =>
        simp only [valid] at h
        cases h

/-- Whether an action only answers: it reads, or observes an object that has an id or is dead, or
forgets an object that has no id, or is refused. -/
def isIdle (s : Session) : Action → Bool
  | .registry name call =>
    match call with
    | .observe slot => (s.handles.get? slot).any fun handle => s.registers name handle.object
    | .tryObserve weak => (s.weaks.get? weak).any fun target =>
        target.all fun o => s.registers name o || s.handleCount o == 0
    | .forget slot => (s.handles.get? slot).any fun handle => !s.registers name handle.object
    | .idOf _ | .size | .minted | .isEmpty | .stats | .describe _ => true
    | .purge => false
  | .handle (.openRegistry _ options) => rejects options
  -- A label that is kept under a name is more than an answer.
  | .label (.static _ _ _ keep) => keep.isNone
  | .label (.describeLabeler ..) | .label (.describe ..) => true
  | _ => false

variable {s : Session} {alloc : Allocator} {name : RegistryName} {n : Nat}

theorem registers_iff (number : s.registryNumber? name = some n) (o : Object) :
    s.registers name o = true ↔ o ∈ (s.world.registry n).tokens := by
  simp [registers, number]

theorem isLive_eq_false_iff (sound : s.scene.Sound) (o : Object) :
    s.world.heap.isLive o = false ↔ s.handleCount o = 0 := by
  rw [← Bool.not_eq_true, Heap.isLive_iff, strongCount_eq_handleCount sound, Nat.not_lt,
    Nat.le_zero]

/-! ### Weak handles -/

section TryObserve

variable (number : s.registryNumber? name = some n) {weak : String}
include number

/-- A call through a weak handle whose object is dead, or that never had one, changes nothing. -/
theorem act_tryObserve_of_dead {target : Option Object} (found : s.weaks.get? weak = some target)
    (dead : ∀ o ∈ target, s.world.heap.isLive o = false) (alloc : Allocator) :
    s.act alloc (.registry name (.tryObserve weak)) = (s, .refused (.fault .dangling)) := by
  simp [act, act?, ask?, number, found, World.tryObserve_of_dead dead]

/-- A weak handle whose object lives observes that object. -/
theorem act_tryObserve_of_live {o : Object} (found : s.weaks.get? weak = some (some o))
    (live : s.world.heap.isLive o = true) (alloc : Allocator) :
    s.act alloc (.registry name (.tryObserve weak)) =
      ({ s with world := (s.world.observe n o).1 }, .id (s.world.observe n o).2) := by
  simp [act, act?, ask?, number, found, World.tryObserve_of_live live]

theorem act_tryObserve_dangling_iff (sound : s.scene.Sound) {target : Option Object}
    (found : s.weaks.get? weak = some target) (alloc : Allocator) :
    (s.act alloc (.registry name (.tryObserve weak))).2 = .refused (.fault .dangling) ↔
      ∀ o ∈ target, s.handleCount o = 0 := by
  simp only [← isLive_eq_false_iff sound]
  constructor
  · rintro refused o rfl
    by_contra lives
    rw [act_tryObserve_of_live number found (Bool.not_eq_false _ ▸ lives)] at refused
    cases refused
  · intro dead
    rw [act_tryObserve_of_dead number found dead]

end TryObserve

/-! ### Single calls -/

theorem act_tryObserve_of_idle (sound : s.scene.Sound) (number : s.registryNumber? name = some n)
    {weak : String} {target : Option Object} (found : s.weaks.get? weak = some target)
    (idle : ∀ o ∈ target, s.registers name o = true ∨ s.handleCount o = 0) (alloc : Allocator) :
    (s.act alloc (.registry name (.tryObserve weak))).1 = s := by
  by_cases dead : ∀ o ∈ target, s.world.heap.isLive o = false
  · rw [act_tryObserve_of_dead number found dead]
  · simp only [not_forall, Bool.not_eq_false] at dead
    obtain ⟨o, rfl, live⟩ := dead
    have registered : s.registers name o = true := by
      refine (idle o rfl).resolve_right fun none => ?_
      rw [(isLive_eq_false_iff sound o).mpr none] at live
      cases live
    have same : (s.world.observe n o).1 = s.world :=
      World.observe_of_registered sound live ((registers_iff number o).mp registered)
    rw [act_tryObserve_of_live number found live, same]

theorem act_ask_of_idle (sound : s.scene.Sound) {call : RegistryCall}
    (idle : s.isIdle (.registry name call) = true) (alloc : Allocator) :
    (s.act alloc (.registry name call)).1 = s := by
  have held := held_of_scene sound
  cases number : s.registryNumber? name with
  | none => simp [act, act?, number]
  | some n =>
    cases call with
    | observe slot =>
      obtain ⟨handle, found, registered⟩ := (Option.any_eq_true _ _).mp idle
      have same : (s.world.observe n handle).1 = s.world :=
        World.observe_of_registered sound (held _ (handle_mem found))
          ((registers_iff number _).mp registered)
      simp [act, act?, ask?, number, found, same]
    | tryObserve weak =>
      obtain ⟨target, found, each⟩ := (Option.any_eq_true _ _).mp idle
      simp only [Option.all_eq_true, Bool.or_eq_true, beq_iff_eq] at each
      exact act_tryObserve_of_idle sound number found each alloc
    | forget slot =>
      obtain ⟨handle, found, unregistered⟩ := (Option.any_eq_true _ _).mp idle
      have missing : handle.object ∉ (s.world.registry n).tokens := by
        rw [← registers_iff number]
        simpa using unregistered
      have same : (s.world.forget n handle).1 = s.world :=
        World.forget_of_unregistered sound (held _ (handle_mem found)) missing
      simp [act, act?, ask?, number, found, same]
    | idOf slot => cases found : s.handles.get? slot <;> simp [act, act?, ask?, number, found]
    | purge => cases idle
    | size | minted | isEmpty | stats | describe indented => simp [act, act?, ask?, number]

/-- A call that is idle leaves the session as it is. -/
theorem act_of_idle (sound : s.scene.Sound) {action : Action} (idle : s.isIdle action = true)
    (alloc : Allocator) : (s.act alloc action).1 = s := by
  cases action with
  | registry name call => exact act_ask_of_idle sound idle alloc
  | handle action =>
    cases action with
    | openRegistry name options =>
      obtain ⟨refusal, configured⟩ := configure_of_rejects idle alloc
      simp [act, act?, handle?, configured]
    | _ => cases idle
  | label action =>
    cases action with
    | static labeler typeName fieldName keep =>
      obtain rfl := Option.isNone_iff_eq_none.mp idle
      cases found : s.labelers.get? labeler <;> simp [act, act?, label?, found, keepLocation]
    | describeLabeler labeler indented =>
      cases found : s.labelers.get? labeler <;> simp [act, act?, label?, found]
    | describe location indented =>
      cases found : s.locations.get? location <;> simp [act, act?, label?, found]
    | _ => cases idle

/-! ### Runs -/

/-- Whether every action that is marked as left out is idle at its place among the others. -/
def leavesOutIdle (s : Session) (alloc : Allocator) : List (Action × Bool) → Bool
  | [] => true
  | (action, true) :: rest => (s.act alloc action).1.leavesOutIdle alloc rest
  | (action, false) :: rest => s.isIdle action && s.leavesOutIdle alloc rest

/-- What a run answers to the actions that are marked as kept. -/
def keptAnswers (s : Session) (alloc : Allocator) (steps : List (Action × Bool)) : List Answer :=
  (((s.run alloc (steps.map Prod.fst)).2.zip (steps.map Prod.snd)).filter Prod.snd).map Prod.fst

theorem leavesOutIdle_of_append {before after : List (Action × Bool)}
    (idle : s.leavesOutIdle alloc (before ++ after) = true) :
    s.leavesOutIdle alloc before = true := by
  induction before generalizing s with
  | nil => rfl
  | cons step rest ih =>
    obtain ⟨action, keep⟩ := step
    cases keep with
    | true => exact ih idle
    | false =>
      rw [List.cons_append, leavesOutIdle, Bool.and_eq_true] at idle
      rw [leavesOutIdle, Bool.and_eq_true]
      exact ⟨idle.1, ih idle.2⟩

theorem run_cons (s : Session) (alloc : Allocator) (action : Action) (rest : List Action) :
    s.run alloc (action :: rest) =
      (((s.act alloc action).1.run alloc rest).1,
        (s.act alloc action).2 :: ((s.act alloc action).1.run alloc rest).2) := rfl

/-- A run comes to the same session without its idle calls, and answers the same to all others. -/
theorem run_kept (sound : s.scene.Sound) {steps : List (Action × Bool)}
    (idle : s.leavesOutIdle alloc steps = true) :
    (s.run alloc (steps.map Prod.fst)).1 = (s.run alloc (kept steps)).1 ∧
      s.keptAnswers alloc steps = (s.run alloc (kept steps)).2 := by
  induction steps generalizing s with
  | nil => exact ⟨rfl, rfl⟩
  | cons step rest ih =>
    obtain ⟨action, keep⟩ := step
    cases keep with
    | true =>
      obtain ⟨same, answers⟩ := ih (sound_act sound alloc action) idle
      have first : kept ((action, true) :: rest) = action :: kept rest := rfl
      rw [first, List.map_cons, run_cons, run_cons]
      exact ⟨same, congrArg _ answers⟩
    | false =>
      rw [leavesOutIdle, Bool.and_eq_true] at idle
      have unchanged := act_of_idle sound idle.1 alloc
      have first : kept ((action, false) :: rest) = kept rest := rfl
      obtain ⟨same, answers⟩ := ih sound idle.2
      rw [first, List.map_cons, run_cons, unchanged]
      refine ⟨same, ?_⟩
      rw [← answers, keptAnswers, List.map_cons, run_cons, unchanged]
      rfl

/-- Calls that read, fail or find their result leave no trace. Whatever calls of this kind are
inserted into a run at any points, it has the same session at every point, with the same tables,
counters, counts, events and destructions, and gives the same answers to all other actions. A weak
handle fails to be observed just when there is no strong handle to its object, and otherwise the
call does what it does with a strong one. -/
theorem idle_calls_leave_no_trace (alloc : Allocator) :
    (∀ before after : List (Action × Bool),
      ({} : Session).leavesOutIdle alloc (before ++ after) = true →
      (({} : Session).run alloc (before.map Prod.fst)).1 =
        (({} : Session).run alloc (kept before)).1 ∧
      ({} : Session).keptAnswers alloc before = (({} : Session).run alloc (kept before)).2) ∧
    (∀ (actions : List Action) (s : Session), (({} : Session).run alloc actions).1 = s →
      ∀ name n weak target, s.registryNumber? name = some n → s.weaks.get? weak = some target →
      ((s.act alloc (.registry name (.tryObserve weak))).2 = .refused (.fault .dangling) ↔
        ∀ o ∈ target, s.handleCount o = 0) ∧
      ∀ o ∈ target, 0 < s.handleCount o →
        s.act alloc (.registry name (.tryObserve weak)) =
          ({ s with world := (s.world.observe n o).1 }, .id (s.world.observe n o).2) ∧
        ∀ slot handle, s.handles.get? slot = some handle → handle.object = o →
          s.act alloc (.registry name (.tryObserve weak)) =
            s.act alloc (.registry name (.observe slot))) := by
  refine ⟨fun before after idle => ?_, ?_⟩
  · exact run_kept (reachable_run alloc []).sound (leavesOutIdle_of_append idle)
  · rintro actions s rfl name n weak target number found
    have sound := (reachable_run alloc actions).sound
    refine ⟨act_tryObserve_dangling_iff number sound found alloc, ?_⟩
    rintro o rfl positive
    have live : (({} : Session).run alloc actions).1.world.heap.isLive o = true := by
      rw [Heap.isLive_iff, strongCount_eq_handleCount sound]
      exact positive
    have observed := act_tryObserve_of_live number found live alloc
    refine ⟨observed, ?_⟩
    rintro slot handle held rfl
    rw [observed]
    simp [act, act?, ask?, number, held, World.observe_handle _ _ handle]

/-- A table at its watermark with an entry of a dead object. All calls that are left out stand
between the death and the insertion that sweeps. -/
def interrupted : List (Action × Bool) :=
  [(.handle (.openRegistry "r" (some (.object [("sweep_threshold", .ofNat 2)]))), true),
    (.handle (.openLabeler "l" (.named "r")), true),
    (.handle (.create (.named "a") .unit "a"), true),
    (.handle (.create (.named "b") .unit "b"), true),
    (.handle (.create (.named "c") .unit "c"), true),
    (.handle (.downgrade (.named "a") "a"), true), (.handle (.downgrade (.named "b") "b"), true),
    (.handle (.weakNew "n"), true), (.registry (.named "r") (.observe (.named "a")), true),
    (.registry (.named "r") (.observe (.named "b")), true), (.handle (.drop (.named "b")), true),
    (.registry (.named "r") (.observe (.named "a")), false),
    (.registry (.named "r") (.tryObserve "a"), false),
    (.registry (.named "r") (.tryObserve "b"), false),
    (.registry (.named "r") (.tryObserve "n"), false),
    (.registry (.named "r") (.idOf (.named "c")), false),
    (.registry (.named "r") (.forget (.named "c")), false),
    (.registry (.named "r") .size, false), (.registry (.named "r") .isEmpty, false),
    (.registry (.named "r") .minted, false), (.registry (.named "r") .stats, false),
    (.registry (.named "r") (.describe true), false),
    (.label (.static "l" "T" "x" none), false),
    (.handle (.openRegistry "r" (some (.object [("sweep_threshold", .ofNat 0)]))), false),
    (.registry (.named "r") (.observe (.named "c")), true)]

theorem idle_calls_leave_no_trace_interrupted :
    ({} : Session).leavesOutIdle .recycling interrupted = true ∧
    (({} : Session).run .recycling (interrupted.map Prod.fst)).1 =
      (({} : Session).run .recycling (kept interrupted)).1 ∧
    (({} : Session).run .recycling (kept interrupted)).1.world.events =
      [(1, .assign ⟨0⟩ 1), (1, .assign ⟨1⟩ 2), (1, .sweep 1 1 2), (1, .assign ⟨2⟩ 2)] := by
  have idle : ({} : Session).leavesOutIdle .recycling interrupted = true := by decide +kernel
  have same := (idle_calls_leave_no_trace .recycling).1 interrupted []
    ((List.append_nil interrupted).symm ▸ idle)
  exact ⟨idle, same.1, by decide +kernel⟩

end Session

end WeakIdentity
