import WeakIdentity.Proofs.Scene.Path
import WeakIdentity.Proofs.Session.Scene

/-! The history of a session: which registry each action calls about which object, and the id that
is returned. Every session is a reachable scene with its history, so that its answers are those of
the ledger. -/

namespace WeakIdentity

open Scene

/-- The id in an answer. -/
def Answer.returned? : Answer → Option ObjectId
  | .id found => some found
  | .lookup found => found
  | .label location => location.owner
  | _ => none

namespace Session

/-- The call that a labeler makes for a label. -/
def labelQuery? (s : Session) (labeler : String) (slot : Slot) : Option Query := do
  let labeler ← s.labelers.get? labeler
  let handle ← s.handles.get? slot
  let number ← s.world.refNumber? labeler
  some ⟨number, .observe, handle.object⟩

/-- The call about an object that a registry gets. There is none through a weak handle whose object
is dead. -/
def callQuery? (s : Session) (number : Nat) : RegistryCall → Option Query
  | .observe slot => (s.handles.get? slot).map fun handle => ⟨number, .observe, handle.object⟩
  | .tryObserve weak => do
    let object ← (s.weaks.get? weak).join
    if s.world.heap.isLive object then some ⟨number, .observe, object⟩ else none
  | .idOf slot => (s.handles.get? slot).map fun handle => ⟨number, .lookup, handle.object⟩
  | .forget slot => (s.handles.get? slot).map fun handle => ⟨number, .forget, handle.object⟩
  | _ => none

/-- The call about an object that an action makes. -/
def query? (s : Session) : Action → Option Query
  | .registry name call => (s.registryNumber? name).bind fun number => s.callQuery? number call
  | .label (.field labeler slot _ _) => s.labelQuery? labeler slot
  | .label (.element labeler slot _ _) => s.labelQuery? labeler slot
  | _ => none

/-- The call that an action makes, with its answer. -/
def calls (s : Session) (alloc : Allocator) (action : Action) : List CallRecord :=
  ((s.query? action).map fun query => ⟨query, (s.act alloc action).2.returned?⟩).toList

/-- The calls that actions make, with their answers, in order. -/
def history (s : Session) (alloc : Allocator) : List Action → List CallRecord
  | [] => []
  | action :: rest => s.calls alloc action ++ (s.act alloc action).1.history alloc rest

variable {s next : Session} {alloc : Allocator} {n : Nat} {answer : Answer}

/-! ### Single actions -/

/-- What the names of a session hold is alive. -/
def Held (s : Session) : Prop := ∀ o ∈ s.strongHandles, s.world.heap.isLive o = true

theorem held_of_sound {weak : Multiset Object} {extra : Multiset Object}
    (sound : s.world.Sound (extra + s.strongHandles) weak) : s.Held :=
  fun _ mem => sound.counted.live_of_mem (Multiset.mem_add.mpr (Or.inr mem))

theorem held_of_scene (sound : s.scene.Sound) : s.Held :=
  fun _ mem => sound.counted.live_of_mem mem

theorem open_of_registryNumber? {name : RegistryName} (held : s.Held)
    (h : s.registryNumber? name = some n) : s.world.Open n := by
  cases name with
  | processWide => exact Or.inl (Option.some.inj h).symm
  | named name =>
    obtain ⟨object, found, number⟩ := Option.bind_eq_some_iff.mp h
    exact Or.inr ⟨object, held object (registry_mem found), number⟩

theorem open_of_labeler {name : String} {labeler : Labeler} (held : s.Held)
    (found : s.labelers.get? name = some labeler) (h : s.world.refNumber? labeler = some n) :
    s.world.Open n := by
  cases labeler with
  | processWide => exact Or.inl (Option.some.inj h).symm
  | shared object =>
    exact Or.inr ⟨object, held object (labeler_mem found (List.mem_singleton_self object)), h⟩

/-- To hold an object for as long as it is looked up is three steps. -/
theorem run_tryObserve {o : Object} {strong weak : Multiset Object} {w : World} (held : o ∈ weak)
    (live : w.heap.isLive o = true) (usable : w.Open n) :
    Run ⟨w, strong, weak⟩ [⟨⟨n, .observe, o⟩, some ((w.retain o).observe n o).2⟩]
      ⟨((w.retain o).observe n o).1.release o, strong, weak⟩ := by
  have upgraded : Run ⟨w, strong, weak⟩ [] ⟨w.retain o, o ::ₘ strong, weak⟩ :=
    (Step.upgrade held live).run
  have asked : Run ⟨w.retain o, o ::ₘ strong, weak⟩
      [⟨⟨n, .observe, o⟩, some ((w.retain o).observe n o).2⟩]
      ⟨((w.retain o).observe n o).1, o ::ₘ strong, weak⟩ :=
    (Step.ask ⟨n, .observe, o⟩ (usable.retain live) (Multiset.mem_cons_self o strong)).run
  have dropped := run_settle ((w.retain o).observe n o).1 [.release o] strong weak
  rw [releases_release, discards_release, releases_nil, discards_nil, Multiset.cons_add,
    Multiset.zero_add, Multiset.zero_add] at dropped
  exact upgraded.trans (asked.thenQuiet dropped)

theorem run_ask? {call : RegistryCall} (usable : s.world.Open n)
    (h : s.ask? n call = some (next, answer)) :
    Run s.scene
      ((s.callQuery? n call).map fun query => (⟨query, answer.returned?⟩ : CallRecord)).toList
      next.scene := by
  cases call with
  | observe slot =>
    obtain ⟨handle, found, done⟩ := Option.bind_eq_some_iff.mp h
    obtain ⟨rfl, rfl⟩ := Prod.mk.inj (Option.some.inj done)
    simp only [callQuery?, found, Option.map_some, Option.toList_some]
    exact (Step.ask ⟨n, .observe, handle.object⟩ usable (handle_mem found)).run
  | tryObserve weak =>
    obtain ⟨target, found, done⟩ := Option.bind_eq_some_iff.mp h
    cases target with
    | none =>
      have nothing : s.callQuery? n (.tryObserve weak) = none := by simp [callQuery?, found]
      obtain ⟨rfl, rfl⟩ := Prod.mk.inj (Option.some.inj done)
      rw [nothing]
      exact Run.refl _
    | some o =>
      by_cases live : s.world.heap.isLive o = true
      · have asks : s.callQuery? n (.tryObserve weak) = some ⟨n, .observe, o⟩ := by
          simp [callQuery?, found, live]
        simp only [World.tryObserve, World.upgrade?, live, if_true] at done
        obtain ⟨rfl, rfl⟩ := Prod.mk.inj (Option.some.inj done)
        rw [asks]
        exact run_tryObserve (weak_mem found) live usable
      · have nothing : s.callQuery? n (.tryObserve weak) = none := by
          simp [callQuery?, found, live]
        simp only [World.tryObserve, World.upgrade?, live] at done
        obtain ⟨rfl, rfl⟩ := Prod.mk.inj (Option.some.inj done)
        rw [nothing]
        exact Run.refl _
  | idOf slot =>
    obtain ⟨handle, found, done⟩ := Option.bind_eq_some_iff.mp h
    obtain ⟨rfl, rfl⟩ := Prod.mk.inj (Option.some.inj done)
    simp only [callQuery?, found, Option.map_some, Option.toList_some]
    exact (Step.ask ⟨n, .lookup, handle.object⟩ usable (handle_mem found)).run
  | forget slot =>
    obtain ⟨handle, found, done⟩ := Option.bind_eq_some_iff.mp h
    obtain ⟨rfl, rfl⟩ := Prod.mk.inj (Option.some.inj done)
    simp only [callQuery?, found, Option.map_some, Option.toList_some]
    exact (Step.ask ⟨n, .forget, handle.object⟩ usable (handle_mem found)).run
  | purge =>
    obtain ⟨rfl, rfl⟩ := Prod.mk.inj (Option.some.inj h)
    exact (Step.purge usable).run
  | size | minted | isEmpty | stats | describe indented =>
    obtain ⟨rfl, rfl⟩ := Prod.mk.inj (Option.some.inj h)
    exact Run.refl _

theorem scene_keepLocation (s : Session) (keep : Option String) (location : Location) :
    (s.keepLocation keep location).scene = s.scene := by
  cases keep <;> rfl

theorem labelQuery?_eq_some {name : String} {slot : Slot} {query : Query}
    (h : s.labelQuery? name slot = some query) :
    ∃ labeler handle n, s.labelers.get? name = some labeler ∧ s.handles.get? slot = some handle ∧
      s.world.refNumber? labeler = some n ∧ query = ⟨n, .observe, handle.object⟩ := by
  obtain ⟨labeler, foundLabeler, rest⟩ := Option.bind_eq_some_iff.mp h
  obtain ⟨handle, found, rest⟩ := Option.bind_eq_some_iff.mp rest
  obtain ⟨n, number, done⟩ := Option.bind_eq_some_iff.mp rest
  exact ⟨labeler, handle, n, foundLabeler, found, number, (Option.some.inj done).symm⟩

/-- Labels the object of a handle by its id. -/
def labelOwner? (s : Session) (name : String) (slot : Slot) (keep : Option String)
    (label : ObjectId → Location) : Option (Session × Answer) := do
  let query ← s.labelQuery? name slot
  let observed := s.world.observe query.registry query.object
  some ({ s with world := observed.1 }.keepLocation keep (label observed.2),
    .label (label observed.2))

theorem label?_field (s : Session) (name : String) (slot : Slot) (fieldName : String)
    (keep : Option String) :
    s.label? (.field name slot fieldName keep) =
      s.labelOwner? name slot keep (.field · fieldName) := by
  simp only [label?, labelOwner?, labelQuery?, Option.bind_eq_bind, Option.bind_assoc]
  rfl

theorem label?_element (s : Session) (name : String) (slot : Slot) (index : UInt64)
    (keep : Option String) :
    s.label? (.element name slot index keep) =
      s.labelOwner? name slot keep (.element · index) := by
  simp only [label?, labelOwner?, labelQuery?, Option.bind_eq_bind, Option.bind_assoc]
  rfl

theorem run_labelOwner? {name : String} {slot : Slot} {keep : Option String}
    {label : ObjectId → Location} (owner : ∀ id, (label id).owner = some id) (held : s.Held)
    (h : s.labelOwner? name slot keep label = some (next, answer)) :
    Run s.scene
      ((s.labelQuery? name slot).map fun query => (⟨query, answer.returned?⟩ : CallRecord)).toList
      next.scene := by
  obtain ⟨query, asks, done⟩ := Option.bind_eq_some_iff.mp h
  obtain ⟨rfl, rfl⟩ := Prod.mk.inj (Option.some.inj done)
  obtain ⟨labeler, handle, n, foundLabeler, found, number, rfl⟩ := labelQuery?_eq_some asks
  have told : (Answer.label (label (s.world.observe n handle.object).2)).returned? =
      some (s.world.observe n handle.object).2 := owner _
  rw [asks, scene_keepLocation, Option.map_some, told]
  exact (Step.ask ⟨n, .observe, handle.object⟩ (open_of_labeler held foundLabeler number)
    (handle_mem found)).run

theorem run_label? {action : LabelAction} (held : s.Held)
    (h : s.label? action = some (next, answer)) :
    Run s.scene
      ((s.query? (.label action)).map fun query => (⟨query, answer.returned?⟩ : CallRecord)).toList
      next.scene := by
  cases action with
  | field name slot fieldName keep =>
    rw [label?_field] at h
    exact run_labelOwner? (fun _ => rfl) held h
  | element name slot index keep =>
    rw [label?_element] at h
    exact run_labelOwner? (fun _ => rfl) held h
  | static name typeName fieldName keep =>
    obtain ⟨labeler, -, done⟩ := Option.bind_eq_some_iff.mp h
    obtain ⟨rfl, rfl⟩ := Prod.mk.inj (Option.some.inj done)
    rw [scene_keepLocation]
    exact Run.refl _
  | describeLabeler name indented =>
    obtain ⟨labeler, -, done⟩ := Option.bind_eq_some_iff.mp h
    obtain ⟨rfl, rfl⟩ := Prod.mk.inj (Option.some.inj done)
    exact Run.refl _
  | equal first second =>
    obtain ⟨a, -, rest⟩ := Option.bind_eq_some_iff.mp h
    obtain ⟨b, -, done⟩ := Option.bind_eq_some_iff.mp rest
    obtain ⟨rfl, rfl⟩ := Prod.mk.inj (Option.some.inj done)
    exact Run.refl _
  | describe name indented =>
    obtain ⟨location, -, done⟩ := Option.bind_eq_some_iff.mp h
    obtain ⟨rfl, rfl⟩ := Prod.mk.inj (Option.some.inj done)
    exact Run.refl _
  | record name =>
    obtain ⟨location, -, done⟩ := Option.bind_eq_some_iff.mp h
    obtain ⟨rfl, rfl⟩ := Prod.mk.inj (Option.some.inj done)
    exact Run.refl _

/-- An action that refers to an unknown name makes no call. -/
theorem query?_of_unknown {action : Action} (h : s.act? alloc action = none) :
    s.query? action = none := by
  cases action with
  | handle action => rfl
  | registry name call =>
    simp only [query?, Option.bind_eq_none_iff]
    intro n number
    simp only [act?, number, Option.bind_eq_bind, Option.bind_some] at h
    cases call with
    | tryObserve weak =>
      cases found : s.weaks.get? weak with
      | none => simp [callQuery?, found]
      | some target =>
        simp only [ask?, found, Option.bind_eq_bind, Option.bind_some] at h
        split at h <;> cases h
    | observe slot | idOf slot | forget slot =>
      cases found : s.handles.get? slot with
      | none => simp [callQuery?, found]
      | some handle => simp [ask?, found] at h
    | _ => rfl
  | label action =>
    cases action with
    | field name slot fieldName keep => simpa [act?, label?, query?, labelQuery?] using h
    | element name slot index keep => simpa [act?, label?, query?, labelQuery?] using h
    | _ => rfl

theorem run_act (held : s.Held) (alloc : Allocator) (action : Action) :
    Run s.scene (s.calls alloc action) (s.act alloc action).1.scene := by
  cases h : s.act? alloc action with
  | none =>
    have nothing : s.calls alloc action = [] := by simp [calls, query?_of_unknown h]
    rw [nothing, act, h]
    exact Run.refl _
  | some result =>
    obtain ⟨next, answer⟩ := result
    rw [calls, act, h, Option.getD_some]
    cases action with
    | handle action => exact run_handle? h
    | registry name call =>
      obtain ⟨n, number, asked⟩ := Option.bind_eq_some_iff.mp h
      rw [query?, number]
      exact run_ask? (open_of_registryNumber? held number) asked
    | label action => exact run_label? held h

/-! ### Runs -/

theorem run_history (sound : s.scene.Sound) (alloc : Allocator) (actions : List Action) :
    Run s.scene (s.history alloc actions) (s.run alloc actions).1.scene := by
  induction actions generalizing s with
  | nil => exact Run.refl _
  | cons action rest ih =>
    have first := run_act (held_of_scene sound) alloc action
    exact first.trans (ih (first.sound sound))

/-- A session is a reachable scene. -/
theorem reachable_run (alloc : Allocator) (actions : List Action) :
    Reachable (({} : Session).history alloc actions)
      (({} : Session).run alloc actions).1.scene := by
  have start : ({} : Session).scene = {} := rfl
  have sound : ({} : Session).scene.Sound := by rw [start]; exact sound_start
  exact run_history sound alloc actions

/-- What holds along all paths holds in all sessions. -/
theorem exists_path_run (alloc : Allocator) (actions : List Action) :
    ∃ path, Path {} path (({} : Session).run alloc actions).1.scene ∧
      Scene.history path = ({} : Session).history alloc actions :=
  (reachable_run alloc actions).exists_path

theorem run_append (s : Session) (alloc : Allocator) (first second : List Action) :
    (s.run alloc (first ++ second)).1 = ((s.run alloc first).1.run alloc second).1 := by
  induction first generalizing s with
  | nil => rfl
  | cons action rest ih => exact ih _

theorem history_append (s : Session) (alloc : Allocator) (first second : List Action) :
    s.history alloc (first ++ second) =
      s.history alloc first ++ (s.run alloc first).1.history alloc second := by
  induction first generalizing s with
  | nil => rfl
  | cons action rest ih =>
    rw [List.cons_append, history, ih, ← List.append_assoc]
    rfl

end Session

end WeakIdentity
