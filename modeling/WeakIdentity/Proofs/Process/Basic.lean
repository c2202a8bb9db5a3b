import WeakIdentity.Proofs.Ledger.Observations
import WeakIdentity.Proofs.Session.History

/-! Processes: threads that run in one session. A call through a weak handle is an upgrade, a call
and a drop, and a drop is as many steps as it has tasks, with steps of the other threads in between.
Every run of a process is a run of scenes, in which each thread holds the handles it works on, and
one such run is that of the threads one after another. -/

namespace WeakIdentity

open Scene

/-- One instruction of the program of a thread. -/
inductive Command where
  /-- An action in one step. -/
  | act (action : Action)
  /-- Upgrades a weak handle, observes its object and drops the handle. -/
  | tryObserve (registry : RegistryName) (weak : String)
  /-- Drops a strong handle, with all that follows. -/
  | drop (slot : Slot)

/-- The action that a command is when its steps are made in a row. -/
def Command.alone : Command → Action
  | .act action => action
  | .tryObserve registry weak => .registry registry (.tryObserve weak)
  | .drop slot => .handle (.drop slot)

/-- How far a thread has come with a command. -/
inductive Phase where
  | idle
  /-- A weak handle has been upgraded, and a registry is to observe its object. -/
  | upgraded (number : Nat) (object : Object)
  | dropping (tasks : List Task)

structure Thread where
  phase : Phase := .idle
  commands : List Command

structure Process where
  session : Session
  threads : List Thread

/-- One step of a thread, with the call that it is, if any. -/
inductive Thread.Step (alloc : Allocator) :
    Session → Thread → List CallRecord → Session → Thread → Prop
  | act {s rest} (action : Action) :
      Step alloc s ⟨.idle, .act action :: rest⟩ (s.calls alloc action) (s.act alloc action).1
        ⟨.idle, rest⟩
  /-- There is no such registry, or no live object behind the weak handle. -/
  | skip {s rest registry weak}
      (nothing : s.registryNumber? registry = none ∨
        s.world.upgrade? (s.weaks.get? weak).join = none) :
      Step alloc s ⟨.idle, .tryObserve registry weak :: rest⟩ [] s ⟨.idle, rest⟩
  | upgrade {s rest registry weak n w o} (number : s.registryNumber? registry = some n)
      (upgraded : s.world.upgrade? (s.weaks.get? weak).join = some (w, o)) :
      Step alloc s ⟨.idle, .tryObserve registry weak :: rest⟩ [] { s with world := w }
        ⟨.upgraded n o, rest⟩
  /-- The registry cannot be dropped in the middle of the call. -/
  | observe {s rest n o} (usable : s.world.Open n) :
      Step alloc s ⟨.upgraded n o, rest⟩ [⟨⟨n, .observe, o⟩, some (s.world.observe n o).2⟩]
        { s with world := (s.world.observe n o).1 } ⟨.dropping [.release o], rest⟩
  | drop {s rest slot} (handle : Handle) (found : s.handles.get? slot = some handle) :
      Step alloc s ⟨.idle, .drop slot :: rest⟩ [] { s with handles := s.handles.erase slot }
        ⟨.dropping [.release handle.object], rest⟩
  | absent {s rest slot} (missing : s.handles.get? slot = none) :
      Step alloc s ⟨.idle, .drop slot :: rest⟩ [] s ⟨.idle, rest⟩
  | perform {s rest} (task : Task) (tasks : List Task) :
      Step alloc s ⟨.dropping (task :: tasks), rest⟩ [] { s with world := (s.world.perform task).1 }
        ⟨.dropping ((s.world.perform task).2 ++ tasks), rest⟩
  | finish {s rest} : Step alloc s ⟨.dropping [], rest⟩ [] s ⟨.idle, rest⟩

namespace Process

inductive Step (alloc : Allocator) : Process → List CallRecord → Process → Prop
  | thread {s s' : Session} {t t' : Thread} {calls : List CallRecord} (before after : List Thread)
      (step : Thread.Step alloc s t calls s' t') :
      Step alloc ⟨s, before ++ t :: after⟩ calls ⟨s', before ++ t' :: after⟩

/-- Steps of threads one after another, in any order, with the calls among them. -/
inductive Run (alloc : Allocator) : Process → List CallRecord → Process → Prop
  | refl (c : Process) : Run alloc c [] c
  | step {c m d : Process} {history calls : List CallRecord} (run : Run alloc c history m)
      (last : Step alloc m calls d) : Run alloc c (history ++ calls) d

/-- A session and the threads that start in it, each with its program. -/
def start (s : Session) (programs : List (List Command)) : Process :=
  ⟨s, programs.map fun commands => { commands }⟩

theorem Run.trans {alloc : Allocator} {c m d : Process} {first second : List CallRecord}
    (before : Run alloc c first m) (after : Run alloc m second d) :
    Run alloc c (first ++ second) d := by
  induction after with
  | refl => simpa using before
  | step run last ih =>
    rw [← List.append_assoc]
    exact ih.step last

theorem Step.run {alloc : Allocator} {c d : Process} {calls : List CallRecord}
    (step : Step alloc c calls d) : Run alloc c calls d := by
  have run := (Run.refl c).step step
  simpa using run

end Process

/-! ### What threads hold -/

/-- What a thread holds while it works on a command. -/
def Phase.strong : Phase → Multiset Object
  | .idle => 0
  | .upgraded _ o => {o}
  | .dropping tasks => releases tasks

def Phase.weak : Phase → Multiset Object
  | .idle | .upgraded .. => 0
  | .dropping tasks => discards tasks

def gather (held : Phase → Multiset Object) : List Thread → Multiset Object
  | [] => 0
  | t :: rest => held t.phase + gather held rest

/-- What holds of all threads still holds when one of them is replaced by one of which it holds. -/
theorem forall_threads {p : Thread → Prop} {before after : List Thread} {t t' : Thread}
    (all : ∀ u ∈ before ++ t :: after, p u) (next : p t') : ∀ u ∈ before ++ t' :: after, p u := by
  rw [List.forall_mem_append, List.forall_mem_cons] at all ⊢
  exact ⟨all.1, next, all.2.2⟩

theorem gather_split (held : Phase → Multiset Object) (before after : List Thread) (t : Thread) :
    gather held (before ++ t :: after) = gather held (before ++ after) + held t.phase := by
  induction before with
  | nil => exact Multiset.add_comm _ _
  | cons first rest ih =>
    rw [List.cons_append, gather, ih, List.cons_append, gather, Multiset.add_assoc]

theorem gather_idle {held : Phase → Multiset Object} (nothing : held .idle = 0)
    {threads : List Thread} (idle : ∀ t ∈ threads, t.phase = .idle) : gather held threads = 0 := by
  induction threads with
  | nil => rfl
  | cons first rest ih =>
    rw [gather, idle first List.mem_cons_self, nothing, Multiset.zero_add]
    exact ih fun t mem => idle t (List.mem_cons_of_mem _ mem)

/-- The scene of a session in which one thread holds something. -/
def Session.sceneWith (s : Session) (phase : Phase) : Scene :=
  ⟨s.world, phase.strong + s.strongHandles, phase.weak + s.weakHandles⟩

def Process.scene (c : Process) : Scene :=
  ⟨c.session.world, gather Phase.strong c.threads + c.session.strongHandles,
    gather Phase.weak c.threads + c.session.weakHandles⟩

theorem Process.scene_split (s : Session) (before after : List Thread) (t : Thread) :
    Process.scene ⟨s, before ++ t :: after⟩ =
      ⟨s.world, gather Phase.strong (before ++ after) + (s.sceneWith t.phase).strong,
        gather Phase.weak (before ++ after) + (s.sceneWith t.phase).weak⟩ := by
  rw [Process.scene, gather_split, gather_split, Multiset.add_assoc, Multiset.add_assoc]
  rfl

/-! ### Runs of scenes -/

theorem Session.sceneWith_idle (s : Session) : s.sceneWith .idle = s.scene := by
  rw [Session.sceneWith, Phase.strong, Phase.weak, Multiset.zero_add, Multiset.zero_add]
  rfl

/-- A step of a thread is a run of the session and the handles of the thread. -/
theorem Thread.Step.run {alloc : Allocator} {s s' : Session} {t t' : Thread}
    {calls : List CallRecord} (step : Thread.Step alloc s t calls s' t') (held : s.Held) :
    Scene.Run (s.sceneWith t.phase) calls (s'.sceneWith t'.phase) := by
  cases step with
  | act action =>
    rw [Session.sceneWith_idle, Session.sceneWith_idle]
    exact Session.run_act held alloc action
  | skip nothing => exact Run.refl _
  | @upgrade rest registry weak n w o number upgraded =>
    obtain ⟨target, live, rfl⟩ := World.upgrade?_eq_some upgraded
    have found : o ∈ s.weakHandles := Session.weak_mem (Option.join_eq_some_iff.mp target)
    rw [Session.sceneWith_idle, Session.sceneWith, Phase.strong, Phase.weak,
      Multiset.singleton_add, Multiset.zero_add]
    exact (Scene.Step.upgrade found live).run
  | @observe rest n o usable =>
    rw [Session.sceneWith, Session.sceneWith, Phase.strong, Phase.strong, Phase.weak, Phase.weak,
      releases_release, discards_release, Multiset.singleton_add, releases_nil, discards_nil,
      Multiset.cons_add, Multiset.zero_add]
    exact (Scene.Step.ask ⟨n, .observe, o⟩ usable (Multiset.mem_cons_self o _)).run
  | @drop rest slot handle found =>
    have split := s.handles.objects_erase (fun handle => [handle.object]) slot
    rw [found, Option.elim_some, Multiset.coe_singleton] at split
    have same : s.sceneWith .idle =
        Session.sceneWith { s with handles := s.handles.erase slot }
          (.dropping [.release handle.object]) := by
      rw [Session.sceneWith_idle, Session.scene, Session.strongHandles, split,
        Multiset.add_assoc]
      rfl
    rw [same]
    exact Run.refl _
  | absent missing => exact Run.refl _
  | perform task tasks =>
    -- What the task brings is held by the thread from now on, in front of the other tasks.
    rw [Session.sceneWith, Session.sceneWith, Phase.strong, Phase.strong, Phase.weak, Phase.weak,
      releases_append, discards_append, Multiset.add_assoc, Multiset.add_assoc]
    cases task with
    | release o =>
      rw [releases_release, discards_release, Multiset.cons_add]
      exact (Scene.Step.drop o).run
    | discard o =>
      rw [releases_discard, discards_discard, Multiset.cons_add, World.perform, releases_nil,
        discards_nil, Multiset.zero_add, Multiset.zero_add]
      exact (Scene.Step.dropWeak o).run
  | finish =>
    have same : s.sceneWith (.dropping []) = s.sceneWith .idle := rfl
    rw [same]
    exact Run.refl _

namespace Process

variable {alloc : Allocator} {c d : Process} {history calls : List CallRecord}

theorem held_of_scene (sound : c.scene.Sound) : c.session.Held := Session.held_of_sound sound

theorem Step.scenes (step : Step alloc c calls d) (sound : c.scene.Sound) :
    Scene.Run c.scene calls d.scene := by
  have held := held_of_scene sound
  cases step with
  | thread before after step =>
    -- What the other threads hold is the frame.
    rw [scene_split, scene_split]
    exact (step.run held).frame _ _

theorem Run.scenes (run : Run alloc c history d) (sound : c.scene.Sound) :
    Scene.Run c.scene history d.scene := by
  induction run with
  | refl => exact Scene.Run.refl _
  | step before last ih => exact ih.trans (last.scenes (ih.sound sound))

theorem scene_start (s : Session) (programs : List (List Command)) :
    (start s programs).scene = s.scene := by
  have idle : ∀ t ∈ (start s programs).threads, t.phase = .idle := by
    intro t mem
    obtain ⟨commands, -, rfl⟩ := List.mem_map.mp mem
    rfl
  rw [scene, gather_idle rfl idle, gather_idle rfl idle, Multiset.zero_add, Multiset.zero_add]
  rfl

theorem Run.scenes_of_start {s : Session} {programs : List (List Command)}
    (run : Run alloc (start s programs) history c) (sound : s.scene.Sound) :
    Scene.Run s.scene history c.scene := by
  rw [← scene_start s programs] at sound ⊢
  exact run.scenes sound

/-! ### One after another -/

variable {s : Session}

theorem run_settle (alloc : Allocator) (s : Session) (tasks : List Task)
    (commands : List Command) (before after : List Thread) :
    Run alloc ⟨s, before ++ ⟨.dropping tasks, commands⟩ :: after⟩ []
      ⟨{ s with world := s.world.settle tasks }, before ++ ⟨.idle, commands⟩ :: after⟩ := by
  have run : ∀ w : World,
      Run alloc ⟨{ s with world := w }, before ++ ⟨.dropping tasks, commands⟩ :: after⟩ []
        ⟨{ s with world := w.settle tasks }, before ++ ⟨.idle, commands⟩ :: after⟩ := by
    intro w
    fun_induction World.settle w tasks with
    | case1 w => exact (Step.thread before after .finish).run
    | case2 w task rest ih => exact (Step.thread before after (.perform task rest)).run.trans ih
  exact run s.world

theorem tryObserve_of_nothing (alloc : Allocator) {registry : RegistryName} {weak : String}
    (nothing : s.registryNumber? registry = none ∨
      s.world.upgrade? (s.weaks.get? weak).join = none) :
    (s.act alloc (.registry registry (.tryObserve weak))).1 = s ∧
      s.calls alloc (.registry registry (.tryObserve weak)) = [] := by
  rcases nothing with unknown | dead
  · simp [Session.act, Session.act?, Session.calls, Session.query?, unknown]
  · cases number : s.registryNumber? registry with
    | none => simp [Session.act, Session.act?, Session.calls, Session.query?, number]
    | some n =>
      have asks : s.query? (.registry registry (.tryObserve weak)) = none := by
        cases target : (s.weaks.get? weak).join with
        | none => simp [Session.query?, Session.callQuery?, number, target]
        | some o =>
          have gone : s.world.heap.isLive o = false := by simpa [World.upgrade?, target] using dead
          simp [Session.query?, Session.callQuery?, number, target, gone]
      refine ⟨?_, by rw [Session.calls, asks]; rfl⟩
      cases found : s.weaks.get? weak with
      | none => simp [Session.act, Session.act?, Session.ask?, number, found]
      | some target =>
        rw [found, Option.join_some] at dead
        simp [Session.act, Session.act?, Session.ask?, number, found, World.tryObserve, dead]

theorem tryObserve_of_live (alloc : Allocator) {registry : RegistryName} {weak : String} {n : Nat}
    {o : Object} (number : s.registryNumber? registry = some n)
    (found : s.weaks.get? weak = some (some o)) (live : s.world.heap.isLive o = true) :
    (s.act alloc (.registry registry (.tryObserve weak))).1 =
        { s with world := ((s.world.retain o).observe n o).1.settle [.release o] } ∧
      s.calls alloc (.registry registry (.tryObserve weak)) =
        [⟨⟨n, .observe, o⟩, some ((s.world.retain o).observe n o).2⟩] := by
  have done : s.act alloc (.registry registry (.tryObserve weak)) =
      ({ s with world := ((s.world.retain o).observe n o).1.settle [.release o] },
        .id ((s.world.retain o).observe n o).2) := by
    simp [Session.act, Session.act?, Session.ask?, number, found, World.tryObserve,
      World.upgrade?, live, World.release]
  have asks : s.query? (.registry registry (.tryObserve weak)) = some ⟨n, .observe, o⟩ := by
    simp [Session.query?, Session.callQuery?, number, found, live]
  rw [Session.calls, asks, done]
  exact ⟨rfl, rfl⟩

/-- A command of which all steps are made in a row is an action of the session. -/
theorem run_command (held : s.Held) (command : Command) (rest : List Command)
    (before after : List Thread) :
    Run alloc ⟨s, before ++ ⟨.idle, command :: rest⟩ :: after⟩ (s.calls alloc command.alone)
      ⟨(s.act alloc command.alone).1, before ++ ⟨.idle, rest⟩ :: after⟩ := by
  cases command with
  | act action => exact (Step.thread before after (.act action)).run
  | tryObserve registry weak =>
    by_cases nothing : s.registryNumber? registry = none ∨
        s.world.upgrade? (s.weaks.get? weak).join = none
    · obtain ⟨same, silent⟩ := tryObserve_of_nothing alloc nothing
      rw [Command.alone, same, silent]
      exact (Step.thread before after (.skip nothing)).run
    · obtain ⟨known, alive⟩ := not_or.mp nothing
      obtain ⟨n, number⟩ := Option.ne_none_iff_exists'.mp known
      obtain ⟨⟨w, o⟩, upgraded⟩ := Option.ne_none_iff_exists'.mp alive
      obtain ⟨target, live, rfl⟩ := World.upgrade?_eq_some upgraded
      obtain ⟨done, told⟩ := tryObserve_of_live alloc number
        (Option.join_eq_some_iff.mp target) live
      have usable := (Session.open_of_registryNumber? held number).retain live
      rw [Command.alone, done, told]
      exact (Step.thread before after (.upgrade number upgraded)).run.trans
        ((Step.thread before after (.observe usable)).run.trans
          (run_settle alloc _ _ _ _ _))
  | drop slot =>
    cases found : s.handles.get? slot with
    | none =>
      have same : (s.act alloc (.handle (.drop slot))).1 = s := by
        simp [Session.act, Session.act?, Session.handle?, found]
      rw [Command.alone, same]
      exact (Step.thread before after (.absent found)).run
    | some handle =>
      have done : (s.act alloc (.handle (.drop slot))).1 =
          { s with
            handles := s.handles.erase slot
            world := s.world.settle [.release handle.object] } := by
        simp [Session.act, Session.act?, Session.handle?, found, Session.release]
      rw [Command.alone, done]
      exact (Step.thread before after (.drop handle found)).run.trans
        (run_settle alloc _ _ _ _ _)

theorem run_program (alloc : Allocator) (sound : s.scene.Sound) (commands : List Command)
    (before after : List Thread) :
    Run alloc ⟨s, before ++ ⟨.idle, commands⟩ :: after⟩
      (s.history alloc (commands.map Command.alone))
      ⟨(s.run alloc (commands.map Command.alone)).1, before ++ ⟨.idle, []⟩ :: after⟩ := by
  induction commands generalizing s with
  | nil => exact Run.refl _
  | cons command rest ih =>
    have held := Session.held_of_scene sound
    have next := (Session.run_act held alloc command.alone).sound sound
    exact (run_command held command rest before after).trans (ih next)

/-- Every thread has completed its program. -/
def Finished (c : Process) : Prop := ∀ t ∈ c.threads, t = { commands := [] }

/-- The threads one after another are one of the orders in which they may run. -/
theorem run_sequence (alloc : Allocator) (sound : s.scene.Sound)
    (programs : List (List Command)) :
    ∃ c : Process, c.Finished ∧
      Run alloc (start s programs) (s.history alloc (programs.flatten.map Command.alone)) c := by
  have run : ∀ (s : Session) (before : List Thread), s.scene.Sound →
      Run alloc ⟨s, before ++ (start s programs).threads⟩
        (s.history alloc (programs.flatten.map Command.alone))
        ⟨(s.run alloc (programs.flatten.map Command.alone)).1,
          before ++ programs.map fun _ => { commands := [] }⟩ := by
    induction programs with
    | nil => exact fun s before sound => Run.refl _
    | cons commands rest ih =>
      intro s before sound
      have first := run_program alloc sound commands before (start s rest).threads
      have reached := (Session.run_history sound alloc (commands.map Command.alone)).sound
        sound
      have others := ih (s.run alloc (commands.map Command.alone)).1
        (before ++ [{ commands := [] }]) reached
      rw [List.append_assoc, List.append_assoc] at others
      rw [List.flatten_cons, List.map_append, Session.history_append, Session.run_append]
      exact first.trans others
  refine ⟨_, fun t mem => ?_, run s [] sound⟩
  obtain ⟨commands, -, rfl⟩ := List.mem_map.mp mem
  rfl

end Process

end WeakIdentity
