import WeakIdentity.Proofs.Process.Basic
import WeakIdentity.Proofs.Ledger.Observations

/-! Processes that only observe a pool of objects which the session holds. Whatever the order of
their steps, the objects that have been observed and those that are still to be observed are
together the pool. -/

namespace WeakIdentity

open Scene

namespace Session

/-- The object of a command that does nothing but make a registry observe it. -/
def target? (s : Session) (n : Nat) : Command → Option Object
  | .act (.registry name (.observe slot)) =>
    if s.registryNumber? name = some n then (s.handles.get? slot).map Handle.object else none
  | .tryObserve name weak =>
    if s.registryNumber? name = some n then (s.weaks.get? weak).join else none
  | _ => none

/-- The pool: the objects that the commands make a registry observe. -/
def pool (s : Session) (n : Nat) (programs : List (List Command)) : Finset Object :=
  (programs.flatten.filterMap (s.target? n)).toFinset

/-- A command does nothing but make a registry observe an object that the session holds. -/
def Watches (s : Session) (n : Nat) (command : Command) : Prop :=
  ∃ o ∈ s.strongHandles, s.target? n command = some o

/-- The sessions have the same names for the same things, in worlds where these are alike. -/
def SameNames (s m : Session) : Prop :=
  ∃ w, m = { s with world := w } ∧ ∀ o, w.heap.content? o = s.world.heap.content? o

variable {s m : Session} {n : Nat}

theorem SameNames.refl (s : Session) : s.SameNames s := ⟨s.world, rfl, fun _ => rfl⟩

theorem SameNames.world (same : s.SameNames m) {w : World}
    (contents : ∀ o, w.heap.content? o = m.world.heap.content? o) :
    s.SameNames { m with world := w } := by
  obtain ⟨v, rfl, before⟩ := same
  exact ⟨w, rfl, fun o => (contents o).trans (before o)⟩

theorem SameNames.strongHandles (same : s.SameNames m) : m.strongHandles = s.strongHandles := by
  obtain ⟨w, rfl, -⟩ := same
  rfl

theorem SameNames.registryNumber? (same : s.SameNames m) (name : RegistryName) :
    m.registryNumber? name = s.registryNumber? name := by
  obtain ⟨w, rfl, contents⟩ := same
  cases name with
  | processWide => rfl
  | named name => exact Option.bind_congr fun o _ => World.registryNumber?_congr (contents o)

theorem SameNames.target? (same : s.SameNames m) (command : Command) :
    m.target? n command = s.target? n command := by
  have numbers := same.registryNumber?
  obtain ⟨w, rfl, -⟩ := same
  unfold Session.target?
  split
  · rw [numbers]
  · rw [numbers]
  · rfl

theorem target?_act {action : Action} {o : Object} (h : s.target? n (.act action) = some o) :
    ∃ name slot handle, action = .registry name (.observe slot) ∧
      s.registryNumber? name = some n ∧ s.handles.get? slot = some handle ∧ handle.object = o := by
  unfold target? at h
  split at h
  · next name slot same =>
    obtain rfl := Command.act.inj same
    split at h
    · next number =>
      obtain ⟨handle, found, same⟩ := Option.map_eq_some_iff.mp h
      exact ⟨name, slot, handle, rfl, number, found, same⟩
    · cases h
  · next impossible => cases impossible
  · cases h

theorem target?_tryObserve {name : RegistryName} {weak : String} {o : Object}
    (h : s.target? n (.tryObserve name weak) = some o) :
    s.registryNumber? name = some n ∧ (s.weaks.get? weak).join = some o := by
  simp only [target?] at h
  split at h
  · next number => exact ⟨number, h⟩
  · cases h

/-- An object of the pool is held, and the registry is open. -/
theorem held_of_mem_pool {programs : List (List Command)} {o : Object} (held : s.Held)
    (watches : ∀ commands ∈ programs, ∀ command ∈ commands, s.Watches n command)
    (mem : o ∈ s.pool n programs) : s.world.Open n ∧ s.world.heap.isLive o = true := by
  obtain ⟨command, there, target⟩ := List.mem_filterMap.mp (List.mem_toFinset.mp mem)
  obtain ⟨commands, program, among⟩ := List.mem_flatten.mp there
  obtain ⟨p, kept, target'⟩ := watches commands program command among
  obtain rfl : o = p := Option.some.inj (target.symm.trans target')
  refine ⟨?_, held o kept⟩
  cases command with
  | act action =>
    obtain ⟨name, -, -, -, number, -, -⟩ := target?_act target
    exact open_of_registryNumber? held number
  | tryObserve name weak => exact open_of_registryNumber? held (target?_tryObserve target).1
  | drop slot => cases target

end Session

/-! ### Steps -/

/-- The object that a thread has upgraded a weak handle of. -/
def Phase.pending : Phase → List Object
  | .upgraded _ o => [o]
  | .idle | .dropping _ => []

/-- The objects that a thread has still to make a registry observe. -/
def Thread.pending (s : Session) (n : Nat) (t : Thread) : List Object :=
  t.phase.pending ++ t.commands.filterMap (s.target? n)

/-- A thread that only makes a registry observe objects that the session holds. -/
structure Thread.Watches (s : Session) (n : Nat) (t : Thread) : Prop where
  commands : ∀ command ∈ t.commands, s.Watches n command
  phase : ∀ k o, t.phase = .upgraded k o → k = n

theorem Thread.Watches.next {s : Session} {n : Nat} {phase next : Phase} {command : Command}
    {rest : List Command} (watches : Thread.Watches s n ⟨phase, command :: rest⟩)
    (upgraded : ∀ k o, next = .upgraded k o → k = n) : Thread.Watches s n ⟨next, rest⟩ :=
  ⟨fun other mem => watches.commands other (List.mem_cons_of_mem _ mem), upgraded⟩

/-- A thread that only observes does not change the names, and goes through what is pending. -/
theorem Thread.Step.observes {alloc : Allocator} {s m m' : Session} {n : Nat} {t t' : Thread}
    {calls : List CallRecord} (step : Thread.Step alloc m t calls m' t') (held : m.Held)
    (same : s.SameNames m) (watches : t.Watches s n) :
    s.SameNames m' ∧ t'.Watches s n ∧
      ∃ objects : List Object, calls.map CallRecord.query = objects.map (⟨n, .observe, ·⟩) ∧
        t.pending s n = objects ++ t'.pending s n := by
  have idle : ∀ k o, Phase.idle = .upgraded k o → k = n := fun k o impossible => by cases impossible
  have dropping : ∀ tasks k o, Phase.dropping tasks = .upgraded k o → k = n :=
    fun tasks k o impossible => by cases impossible
  cases step with
  | act action =>
    obtain ⟨o, -, target⟩ := watches.commands _ List.mem_cons_self
    have target' := target
    rw [← same.target?] at target'
    obtain ⟨name, slot, handle, rfl, number, found, rfl⟩ := Session.target?_act target'
    have done : m.act alloc (.registry name (.observe slot)) =
        ({ m with world := (m.world.observe n handle).1 }, .id (m.world.observe n handle).2) := by
      simp [Session.act, Session.act?, Session.ask?, number, found]
    have asks : m.query? (.registry name (.observe slot)) = some ⟨n, .observe, handle.object⟩ := by
      simp [Session.query?, Session.callQuery?, number, found]
    rw [Session.calls, asks, done]
    refine ⟨same.world fun o => World.content?_apply _ _ _ o, watches.next idle, [handle.object],
      rfl, ?_⟩
    rw [Thread.pending, List.filterMap_cons_some target]
    rfl
  | @skip rest name weak nothing =>
    obtain ⟨o, mem, target⟩ := watches.commands _ List.mem_cons_self
    rw [← same.target?] at target
    obtain ⟨number, found⟩ := Session.target?_tryObserve target
    -- The session holds the object, so that the upgrade cannot fail.
    have live := held o (same.strongHandles ▸ mem)
    simp [number, found, World.upgrade?, live] at nothing
  | @upgrade rest name weak k w o number upgraded =>
    obtain ⟨p, -, target⟩ := watches.commands _ List.mem_cons_self
    have target' := target
    rw [← same.target?] at target'
    obtain ⟨number', found⟩ := Session.target?_tryObserve target'
    obtain ⟨found', -, rfl⟩ := World.upgrade?_eq_some upgraded
    obtain rfl : p = o := Option.some.inj (found.symm.trans found')
    obtain rfl : n = k := Option.some.inj (number'.symm.trans number)
    refine ⟨same.world fun o => Heap.content?_retain _ _ o,
      watches.next fun k o equal => (Phase.upgraded.inj equal).1.symm, [], rfl, ?_⟩
    rw [Thread.pending, List.filterMap_cons_some target]
    rfl
  | @observe rest k o usable =>
    obtain rfl := watches.phase k o rfl
    exact ⟨same.world fun o => World.content?_apply _ _ _ o,
      ⟨watches.commands, dropping _⟩, [o], rfl, rfl⟩
  | drop handle found | absent missing =>
    obtain ⟨o, -, target⟩ := watches.commands _ List.mem_cons_self
    cases target
  | perform task tasks =>
    exact ⟨same.world fun o => World.content?_perform m.world task o,
      ⟨watches.commands, dropping _⟩, [], rfl, rfl⟩
  | finish => exact ⟨same, ⟨watches.commands, idle⟩, [], rfl, rfl⟩

/-! ### Runs -/

namespace Process

variable {alloc : Allocator} {c d : Process} {s : Session} {n : Nat}
  {history calls : List CallRecord}

/-- A process that only makes a registry observe objects that the session holds. -/
structure Watches (s : Session) (n : Nat) (c : Process) : Prop where
  names : s.SameNames c.session
  threads : ∀ t ∈ c.threads, t.Watches s n

def pending (s : Session) (n : Nat) (c : Process) : List Object :=
  c.threads.flatMap (Thread.pending s n)

/-- The calls all make the registry observe something. -/
def Watching (n : Nat) (history : List CallRecord) : Prop :=
  ∀ query ∈ history.map CallRecord.query, ∃ o, query = ⟨n, .observe, o⟩

theorem Step.observes (step : Step alloc c calls d) (held : c.session.Held)
    (watches : c.Watches s n) :
    d.Watches s n ∧ Watching n calls ∧
      ∀ o, o ∈ c.pending s n ↔ o ∈ observed n (calls.map CallRecord.query) ∨ o ∈ d.pending s n := by
  cases step with
  | @thread m m' t t' calls before after step =>
    have self : t.Watches s n := watches.threads t (by simp)
    obtain ⟨names, next, objects, asked, pending⟩ := step.observes held watches.names self
    refine ⟨⟨names, forall_threads watches.threads next⟩, fun query mem => ?_, fun o => ?_⟩
    · rw [asked] at mem
      obtain ⟨o, -, rfl⟩ := List.mem_map.mp mem
      exact ⟨o, rfl⟩
    · have among : o ∈ observed n (calls.map CallRecord.query) ↔ o ∈ objects := by
        rw [mem_observed, asked]
        simp
      simp only [Process.pending, List.flatMap_append, List.flatMap_cons, List.mem_append, pending,
        among]
      tauto

theorem Run.observes (run : Run alloc c history d) (sound : c.scene.Sound)
    (watches : c.Watches s n) :
    d.Watches s n ∧ Watching n history ∧
      ∀ o, o ∈ c.pending s n ↔
        o ∈ observed n (history.map CallRecord.query) ∨ o ∈ d.pending s n := by
  induction run with
  | refl => exact ⟨watches, List.forall_mem_nil _, fun o => by simp [observed]⟩
  | step before last ih =>
    obtain ⟨reached, watching, pending⟩ := ih
    have held := held_of_scene ((before.scenes sound).sound sound)
    obtain ⟨next, more, left⟩ := last.observes held reached
    refine ⟨next, ?_, fun o => ?_⟩
    · rw [Watching, List.map_append]
      exact List.forall_mem_append.mpr ⟨watching, more⟩
    · rw [pending, left, mem_observed, mem_observed, mem_observed, List.map_append,
        List.mem_append, or_assoc]

theorem watches_start {programs : List (List Command)}
    (watches : ∀ commands ∈ programs, ∀ command ∈ commands, s.Watches n command) :
    (start s programs).Watches s n := by
  refine ⟨Session.SameNames.refl s, fun t mem => ?_⟩
  obtain ⟨commands, there, rfl⟩ := List.mem_map.mp mem
  exact ⟨watches commands there, fun k o impossible => by cases impossible⟩

theorem pending_start (s : Session) (n : Nat) (programs : List (List Command)) (o : Object) :
    o ∈ (start s programs).pending s n ↔ o ∈ s.pool n programs := by
  rw [Session.pool, List.mem_toFinset, List.filterMap_flatten, ← List.flatMap_def, pending, start,
    List.flatMap_map]
  rfl

/-- In a run to the end, just the pool is observed. -/
theorem Run.observed_pool {programs : List (List Command)}
    (run : Run alloc (start s programs) history c) (sound : s.scene.Sound)
    (watches : ∀ commands ∈ programs, ∀ command ∈ commands, s.Watches n command)
    (finished : c.Finished) :
    Watching n history ∧ observed n (history.map CallRecord.query) = s.pool n programs := by
  rw [← scene_start s programs] at sound
  obtain ⟨-, watching, pending⟩ := run.observes sound (watches_start watches)
  refine ⟨watching, ?_⟩
  ext o
  rw [← pending_start, pending]
  -- Finished threads have nothing left to observe.
  refine (or_iff_left fun left => ?_).symm
  obtain ⟨t, mem, here⟩ := List.mem_flatMap.mp left
  rw [finished t mem] at here
  cases here

end Process

end WeakIdentity
