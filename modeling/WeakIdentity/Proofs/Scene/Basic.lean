import WeakIdentity.Proofs.World.Changes

/-! Scenes: a world together with the references that are held outside its heap, under a name, in a
thread, or while a destruction is going on. Steps are the atomic ones, so that runs of steps are all
interleavings, also those in the middle of a destruction. -/

namespace WeakIdentity

/-- The calls of a registry about one object. -/
inductive Call where
  | observe
  | lookup
  | forget
  deriving DecidableEq, Repr

/-- A call of a registry. -/
structure Query where
  registry : Nat
  call : Call
  object : Object
  deriving DecidableEq, Repr

/-- A call and the id it was answered with. -/
structure CallRecord where
  query : Query
  answer : Option ObjectId
  deriving DecidableEq, Repr

/-- Makes a call. -/
def World.ask (w : World) (query : Query) : World × Option ObjectId :=
  match query.call with
  | .observe =>
    let (observed, id) := w.observe query.registry query.object
    (observed, some id)
  | .lookup => (w, w.idOf query.registry query.object)
  | .forget => w.forget query.registry query.object

/-- A world, and the strong and weak references from outside its heap. -/
structure Scene where
  world : World := {}
  strong : Multiset Object := 0
  weak : Multiset Object := 0

namespace Scene

/-- One step, with the call that it is, if any. Only what is held can be used. -/
inductive Step : Scene → List CallRecord → Scene → Prop
  | create {w strong weak} (alloc : Allocator) (layout : Layout) {content : Content}
      (held : ∀ o ∈ content.owned, o ∈ strong) (other : ∀ n, content ≠ .registry n) :
      Step ⟨w, strong, weak⟩ []
        ⟨(w.create alloc layout content).1, (w.create alloc layout content).2 ::ₘ strong, weak⟩
  | openRegistry {w strong weak} (alloc : Allocator) {options : Options}
      (valid : options.validate = .ok ()) (fits : alloc.fits options.initialCapacity = true) :
      Step ⟨w, strong, weak⟩ []
        ⟨(w.createRegistry alloc (.ofOptions options)).1,
          (w.createRegistry alloc (.ofOptions options)).2 ::ₘ strong, weak⟩
  | clone {w strong weak o} (held : o ∈ strong) :
      Step ⟨w, strong, weak⟩ [] ⟨w.retain o, o ::ₘ strong, weak⟩
  | downgrade {w strong weak o} (held : o ∈ strong) :
      Step ⟨w, strong, weak⟩ [] ⟨w.retainWeak o, strong, o ::ₘ weak⟩
  | cloneWeak {w strong weak o} (held : o ∈ weak) :
      Step ⟨w, strong, weak⟩ [] ⟨w.retainWeak o, strong, o ::ₘ weak⟩
  | upgrade {w strong weak o} (held : o ∈ weak) (live : w.heap.isLive o = true) :
      Step ⟨w, strong, weak⟩ [] ⟨w.retain o, o ::ₘ strong, weak⟩
  /-- Drops a strong handle; if it was the last one, what is left to drop is held instead. -/
  | drop {w strong weak} (o : Object) :
      Step ⟨w, o ::ₘ strong, weak⟩ []
        ⟨(w.perform (.release o)).1, releases (w.perform (.release o)).2 + strong,
          discards (w.perform (.release o)).2 + weak⟩
  | dropWeak {w strong weak} (o : Object) :
      Step ⟨w, strong, o ::ₘ weak⟩ [] ⟨w.releaseWeak o, strong, weak⟩
  | link {w w' strong weak node target} (holder : node ∈ strong) (held : target ∈ strong)
      (linked : w.link? node target = some w') :
      Step ⟨w, strong, weak⟩ [] ⟨w', strong, weak⟩
  | unlink {w strong weak node name links} (holder : node ∈ strong)
      (content : w.heap.content? node = some (.node name links)) :
      Step ⟨w, strong, weak⟩ []
        ⟨{ w with heap := w.heap.setContent node (.node name []) }, ↑links + strong, weak⟩
  | purge {w strong weak n} (usable : w.Open n) :
      Step ⟨w, strong, weak⟩ [] ⟨(w.purge n).1, strong, weak⟩
  | ask {w strong weak} (query : Query) (usable : w.Open query.registry)
      (held : query.object ∈ strong) :
      Step ⟨w, strong, weak⟩ [⟨query, (w.ask query).2⟩] ⟨(w.ask query).1, strong, weak⟩

/-- A run: steps one after another, with the calls among them in order. -/
inductive Run : Scene → List CallRecord → Scene → Prop
  | refl (s : Scene) : Run s [] s
  | step {s m t : Scene} {before calls : List CallRecord} (run : Run s before m)
      (last : Step m calls t) : Run s (before ++ calls) t

/-- A scene that some run from the empty one leads to, with the calls on the way. -/
def Reachable (history : List CallRecord) (s : Scene) : Prop := Run {} history s

theorem Step.run {s t : Scene} {calls : List CallRecord} (step : Step s calls t) :
    Run s calls t := by
  have run := (Run.refl s).step step
  simpa using run

theorem Run.trans {s m t : Scene} {first second : List CallRecord} (before : Run s first m)
    (after : Run m second t) : Run s (first ++ second) t := by
  induction after with
  | refl => simpa using before
  | step run last ih =>
    rw [← List.append_assoc]
    exact ih.step last

theorem Run.thenQuiet {s m t : Scene} {calls : List CallRecord} (before : Run s calls m)
    (after : Run m [] t) : Run s calls t := by
  simpa using before.trans after

/-- A step may be made while others hold more. -/
theorem Step.frame {s t : Scene} {calls : List CallRecord} (step : Step s calls t)
    (strong weak : Multiset Object) :
    Step ⟨s.world, strong + s.strong, weak + s.weak⟩ calls
      ⟨t.world, strong + t.strong, weak + t.weak⟩ := by
  have more : ∀ {o : Object} {own extra : Multiset Object}, o ∈ own → o ∈ extra + own :=
    fun mem => Multiset.mem_add.mpr (Or.inr mem)
  have swap : ∀ first second third : Multiset Object,
      first + (second + third) = second + (first + third) := by
    intro first second third
    rw [← Multiset.add_assoc, Multiset.add_comm first, Multiset.add_assoc]
  cases step with
  | create alloc layout held other =>
    rw [Multiset.add_cons]
    exact Step.create alloc layout (fun o mem => more (held o mem)) other
  | openRegistry alloc valid fits =>
    rw [Multiset.add_cons]
    exact Step.openRegistry alloc valid fits
  | clone held =>
    rw [Multiset.add_cons]
    exact Step.clone (more held)
  | downgrade held =>
    rw [Multiset.add_cons]
    exact Step.downgrade (more held)
  | cloneWeak held =>
    rw [Multiset.add_cons]
    exact Step.cloneWeak (more held)
  | upgrade held live =>
    rw [Multiset.add_cons]
    exact Step.upgrade (more held) live
  | drop o =>
    dsimp only
    rw [Multiset.add_cons, swap strong, swap weak]
    exact Step.drop o
  | dropWeak o =>
    rw [Multiset.add_cons]
    exact Step.dropWeak o
  | link holder held linked => exact Step.link (more holder) (more held) linked
  | unlink holder content =>
    dsimp only
    rw [swap strong]
    exact Step.unlink (more holder) content
  | purge usable => exact Step.purge usable
  | ask query usable held => exact Step.ask query usable (more held)

theorem Run.frame {s t : Scene} {calls : List CallRecord} (run : Run s calls t)
    (strong weak : Multiset Object) :
    Run ⟨s.world, strong + s.strong, weak + s.weak⟩ calls
      ⟨t.world, strong + t.strong, weak + t.weak⟩ := by
  induction run with
  | refl => exact Run.refl _
  | step before last ih => exact ih.step (last.frame strong weak)

/-! ### The invariant -/

/-- The world of the scene is sound for the references of the scene. -/
def Sound (s : Scene) : Prop := s.world.Sound s.strong s.weak

theorem sound_start : Sound {} := by
  have blocks : ∀ o : Object, ({} : Heap).block? o = none := fun o => by simp [Heap.block?]
  have table : ∀ n, ({} : World).registry n = .ofOptions {} := by
    intro n
    rw [World.registry_eq_getD]
    cases n <;> simp
  have numbers : ∀ o, ({} : World).registryNumber? o = none := fun o => by
    simp [World.registryNumber?, blocks]
  refine ⟨⟨fun o => ?_, fun o => ?_, fun o p _ ho => ?_, fun n => ?_⟩,
    ⟨fun o n h => ?_, fun o p n h => ?_, by decide⟩⟩
  · simp [Heap.strongCount, Heap.linkCount, blocks]
  · simp [Heap.weakRefs, Heap.sharedRef, Heap.isLive, World.tokenCount, Registry.tokens,
      Registry.ofOptions, blocks]
  · simp [Heap.weakRefs, blocks] at ho
  · rw [table]
    exact ⟨by simp [Registry.ofOptions], by simp [Registry.ofOptions]⟩
  · simp [numbers] at h
  · simp [numbers] at h

theorem sound_ask {w : World} {strong weak : Multiset Object} (sound : w.Sound strong weak)
    {query : Query} (usable : w.Open query.registry) (held : query.object ∈ strong) :
    (w.ask query).1.Sound strong weak := by
  have bound := usable.lt_size sound.numbered
  obtain ⟨n, call, o⟩ := query
  cases call with
  | observe => exact sound.observe bound (sound.counted.live_of_mem held)
  | lookup => exact sound
  | forget => exact sound.forget bound o

theorem Step.sound {s t : Scene} {calls : List CallRecord} (step : Step s calls t)
    (sound : s.Sound) : t.Sound := by
  cases step with
  | create alloc layout held other =>
    have created := World.Sound.create sound alloc layout held other
    rwa [World.create_eq] at created ⊢
  | @openRegistry _ _ _ alloc options valid fits =>
    have created := World.Sound.createRegistry sound alloc (.ofOptions options) rfl
    rwa [World.createRegistry_eq] at created ⊢
  | clone held => exact World.Sound.retain sound (sound.counted.live_of_mem held)
  | downgrade held =>
    have live := sound.counted.live_of_mem held
    exact World.Sound.retainWeak sound (sound.counted.reserved_of_live live)
  | cloneWeak held => exact World.Sound.retainWeak sound (sound.counted.reserved_of_mem held)
  | upgrade held live => exact World.Sound.retain sound live
  | drop o => exact World.Sound.perform_release sound
  | dropWeak o => exact World.Sound.releaseWeak sound
  | link holder held linked => exact World.Sound.link sound holder held linked
  | unlink holder content => exact World.Sound.unlink sound holder content
  | purge usable => exact World.Sound.purge sound (usable.lt_size sound.numbered)
  | ask query usable held => exact sound_ask sound usable held

theorem Run.sound {s t : Scene} {calls : List CallRecord} (run : Run s calls t) (sound : s.Sound) :
    t.Sound := by
  induction run with
  | refl => exact sound
  | step run last ih => exact last.sound ih

theorem Reachable.sound {history : List CallRecord} {s : Scene} (h : Reachable history s) :
    s.Sound :=
  Run.sound h sound_start

/-! ### Destruction -/

/-- Tasks that are settled one after another are a run, in which no registry is called. -/
theorem run_settle (w : World) (tasks : List Task) (strong weak : Multiset Object) :
    Run ⟨w, releases tasks + strong, discards tasks + weak⟩ [] ⟨w.settle tasks, strong, weak⟩ := by
  fun_induction World.settle w tasks with
  | case1 w =>
    rw [releases_nil, discards_nil, Multiset.zero_add, Multiset.zero_add]
    exact Run.refl _
  | case2 w task rest ih =>
    rw [releases_append, discards_append, Multiset.add_assoc, Multiset.add_assoc] at ih
    cases task with
    | release o =>
      rw [releases_release, discards_release, Multiset.cons_add]
      exact (Step.drop o).run.thenQuiet ih
    | discard o =>
      rw [World.perform, releases_nil, discards_nil, Multiset.zero_add, Multiset.zero_add] at ih
      rw [releases_discard, discards_discard, Multiset.cons_add]
      exact (Step.dropWeak o).run.thenQuiet ih

end Scene

end WeakIdentity
