import WeakIdentity.Proofs.Session.Alike
import WeakIdentity.Proofs.World.Destruction

/-! Lifetimes do not depend on registration. Two runs that differ in their calls of registries and
in the labels that they make destroy the same objects in the same order. -/

namespace WeakIdentity

namespace Action

/-- Whether an action only calls registries or uses locations. -/
def asks : Action → Bool
  | .handle _ => false
  | .registry .. | .label _ => true

/-- Whether a weak handle could be upgraded, if the action had to do that. -/
def upgraded? : Action → Answer → Option Bool
  | .handle (.upgrade ..), .alive alive => some alive
  | .registry _ (.tryObserve _), .id _ => some true
  | .registry _ (.tryObserve _), .refused _ => some false
  | _, _ => none

end Action

/-- What an action does to lifetimes. -/
structure Fate where
  /-- The destroyed objects, in order. -/
  destroyed : List Object
  /-- The names that destructions have reported so far. -/
  reported : List String
  /-- How many strong handles there are to each object afterwards. -/
  strong : Object → Nat
  upgraded? : Option Bool

/-- The objects that are destroyed when the handles are dropped. -/
def Staged.destroyedObjects (staged : Staged) : List Object :=
  staged.session.world.destroyedObjects (staged.dropped.map Task.release)

namespace Session

/-- The objects that an action destroys, in order. -/
def destroyedObjects (s : Session) (alloc : Allocator) : Action → List Object
  | .handle action => (s.stage? alloc action).elim [] Staged.destroyedObjects
  | .registry name (.tryObserve weak) =>
    match s.registryNumber? name, s.weaks.get? weak with
    | some number, some weak => s.world.tryDestroyedObjects number weak
    | _, _ => []
  -- No other action drops a strong handle.
  | _ => []

def fate (s : Session) (alloc : Allocator) (action : Action) : Fate where
  destroyed := s.destroyedObjects alloc action
  reported := (s.act alloc action).1.world.destroyed.map Destruction.name
  strong := (s.act alloc action).1.world.heap.strongCount
  upgraded? := action.upgraded? (s.act alloc action).2

namespace Corresponds

theorem refl (s : Session) : s.Corresponds s := ⟨World.Alike.refl _, rfl⟩

variable {s t u : Session}

theorem symm (corresponds : s.Corresponds t) : t.Corresponds s := by
  have names : s = { t with world := s.world, locations := s.locations, tally := s.tally } := by
    rw [corresponds.names]
  exact ⟨corresponds.world.symm, names⟩

theorem trans (first : s.Corresponds t) (second : t.Corresponds u) : s.Corresponds u := by
  have names : u = { s with world := u.world, locations := u.locations, tally := u.tally } := by
    rw [second.names, first.names]
  exact ⟨first.world.trans second.world, names⟩

end Corresponds

/-! ### Calls of registries and labelers -/

variable {s t next : Session} {n : Nat} {answer : Answer}

theorem corresponds_ask? {call : RegistryCall} (h : s.ask? n call = some (next, answer)) :
    s.Corresponds next := by
  have changed : ∀ change, s.Corresponds { s with world := s.world.apply n change } := fun change =>
    ⟨((World.Alike.refl s.world).applyLeft n change).symm, rfl⟩
  cases call with
  | observe slot =>
    obtain ⟨handle, -, done⟩ := Option.bind_eq_some_iff.mp h
    obtain ⟨rfl, -⟩ := Prod.mk.inj (Option.some.inj done)
    exact changed _
  | tryObserve weak =>
    obtain ⟨target, -, done⟩ := Option.bind_eq_some_iff.mp h
    cases target with
    | none =>
      obtain ⟨rfl, -⟩ := Prod.mk.inj (Option.some.inj done)
      exact Corresponds.refl s
    | some o =>
      by_cases live : s.world.heap.isLive o = true
      · simp only [World.tryObserve, World.upgrade?, live, if_true] at done
        obtain ⟨rfl, -⟩ := Prod.mk.inj (Option.some.inj done)
        exact ⟨(World.alike_tryObserve live n).symm, rfl⟩
      · simp only [World.tryObserve, World.upgrade?, live] at done
        obtain ⟨rfl, -⟩ := Prod.mk.inj (Option.some.inj done)
        exact Corresponds.refl s
  | idOf slot =>
    obtain ⟨handle, -, done⟩ := Option.bind_eq_some_iff.mp h
    obtain ⟨rfl, -⟩ := Prod.mk.inj (Option.some.inj done)
    exact Corresponds.refl s
  | forget slot =>
    obtain ⟨handle, -, done⟩ := Option.bind_eq_some_iff.mp h
    obtain ⟨rfl, -⟩ := Prod.mk.inj (Option.some.inj done)
    exact changed _
  | purge =>
    obtain ⟨rfl, -⟩ := Prod.mk.inj (Option.some.inj h)
    exact changed _
  | size | minted | isEmpty | stats | describe indented =>
    obtain ⟨rfl, -⟩ := Prod.mk.inj (Option.some.inj h)
    exact Corresponds.refl s

theorem corresponds_keepLocation {w : World} (alike : s.world.Alike w) (keep : Option String)
    (location : Location) : s.Corresponds ({ s with world := w }.keepLocation keep location) := by
  cases keep <;> exact ⟨alike, rfl⟩

theorem corresponds_label? {action : LabelAction} (h : s.label? action = some (next, answer)) :
    s.Corresponds next := by
  have labelled : ∀ {name slot keep label},
      s.labelOwner? name slot keep label = some (next, answer) → s.Corresponds next := by
    intro name slot keep label done
    obtain ⟨query, -, done⟩ := Option.bind_eq_some_iff.mp done
    obtain ⟨rfl, -⟩ := Prod.mk.inj (Option.some.inj done)
    exact corresponds_keepLocation ((World.Alike.refl s.world).applyLeft _ _).symm keep _
  cases action with
  | field name slot fieldName keep =>
    rw [label?_field] at h
    exact labelled h
  | element name slot index keep =>
    rw [label?_element] at h
    exact labelled h
  | static name typeName fieldName keep =>
    obtain ⟨labeler, -, done⟩ := Option.bind_eq_some_iff.mp h
    obtain ⟨rfl, -⟩ := Prod.mk.inj (Option.some.inj done)
    exact corresponds_keepLocation (World.Alike.refl s.world) keep _
  | describeLabeler name indented | describe name indented =>
    obtain ⟨found, -, done⟩ := Option.bind_eq_some_iff.mp h
    obtain ⟨rfl, -⟩ := Prod.mk.inj (Option.some.inj done)
    exact Corresponds.refl s
  | equal first second =>
    obtain ⟨a, -, rest⟩ := Option.bind_eq_some_iff.mp h
    obtain ⟨b, -, done⟩ := Option.bind_eq_some_iff.mp rest
    obtain ⟨rfl, -⟩ := Prod.mk.inj (Option.some.inj done)
    exact Corresponds.refl s
  | record name =>
    obtain ⟨location, -, done⟩ := Option.bind_eq_some_iff.mp h
    obtain ⟨rfl, -⟩ := Prod.mk.inj (Option.some.inj done)
    exact ⟨World.Alike.refl _, rfl⟩

/-- A call of a registry changes no lifetime. -/
theorem corresponds_act_of_asks {action : Action} (asks : action.asks = true) (alloc : Allocator) :
    s.Corresponds (s.act alloc action).1 := by
  unfold act
  cases h : s.act? alloc action with
  | none => exact Corresponds.refl s
  | some result =>
    obtain ⟨next, answer⟩ := result
    cases action with
    | handle action => cases asks
    | registry name call =>
      obtain ⟨n, -, asked⟩ := Option.bind_eq_some_iff.mp h
      exact corresponds_ask? asked
    | label action => exact corresponds_label? h

theorem destroyedObjects_of_asks {action : Action} (asks : action.asks = true) (alloc : Allocator) :
    s.destroyedObjects alloc action = [] := by
  cases action with
  | handle action => cases asks
  | label action => rfl
  | registry name call =>
    cases call with
    | tryObserve weak =>
      simp only [destroyedObjects]
      split
      · exact World.tryDestroyedObjects_eq_nil _ _ _
      · rfl
    | _ => rfl

/-! ### Actions on handles -/

section Handles

variable (corresponds : s.Corresponds t) {alloc alloc' : Allocator}
  (fits : alloc.fits = alloc'.fits) (action : HandleAction)
include corresponds

include fits in
theorem Corresponds.staged :
    StagedAgree (!showsCounts action) s t (s.stage? alloc action) (t.stage? alloc' action) := by
  have staged : StagedAgree (!showsCounts action) s
      { s with world := t.world, locations := t.locations, tally := t.tally }
      (s.stage? alloc action)
      (stage? { s with world := t.world, locations := t.locations, tally := t.tally } alloc'
        action) := agree_stage? corresponds.world fits action
  rwa [← corresponds.names] at staged

theorem Corresponds.release (objects : List Object) :
    (s.release objects).Corresponds (t.release objects) := by
  refine ⟨corresponds.world.settle _, ?_⟩
  rw [corresponds.names]
  rfl

include fits in
/-- Sessions that correspond do the same to lifetimes, and correspond afterwards. -/
theorem Corresponds.handle :
    s.fate alloc (.handle action) = t.fate alloc' (.handle action) ∧
      (s.act alloc (.handle action)).1.Corresponds (t.act alloc' (.handle action)).1 := by
  have staged := corresponds.staged fits action
  simp only [fate, destroyedObjects, act, act?, handle?_eq]
  revert staged
  generalize s.stage? alloc action = first
  generalize t.stage? alloc' action = second
  intro staged
  cases staged with
  | none =>
    refine ⟨?_, corresponds⟩
    simp only [Option.map_none, Option.getD_none, funext corresponds.world.strongCount_eq,
      corresponds.world.destroyed]
  | @some p q related =>
    obtain ⟨corresponds', -, -, dropped, answers⟩ := related
    have released := corresponds'.release p.dropped
    have destroyedObjects : p.destroyedObjects = q.destroyedObjects := by
      rw [Staged.destroyedObjects, Staged.destroyedObjects, ← dropped,
        corresponds'.world.destroyedObjects]
    have upgraded : (Action.handle action).upgraded? p.answer =
        (Action.handle action).upgraded? q.answer := by
      cases action with
      | counts slot => rfl
      | _ => rw [answers rfl]
    simp only [Option.map_some, Option.getD_some, Option.elim_some, Staged.finish, ← dropped]
    refine ⟨?_, released⟩
    rw [destroyedObjects, released.world.destroyed, funext released.world.strongCount_eq, upgraded]

end Handles

/-! ### Runs -/

theorem Corresponds.registryNumber? (corresponds : s.Corresponds t) (name : RegistryName) :
    s.registryNumber? name = t.registryNumber? name := by
  rw [corresponds.names]
  exact registryNumber?_alike corresponds.world name

/-- A weak handle is upgraded just if its object is alive. -/
theorem upgraded?_tryObserve (s : Session) (alloc : Allocator) (name : RegistryName)
    (weak : String) :
    (Action.registry name (.tryObserve weak)).upgraded?
        (s.act alloc (.registry name (.tryObserve weak))).2 =
      (s.registryNumber? name).bind fun _ =>
        (s.weaks.get? weak).map fun weak => weak.any s.world.heap.isLive := by
  simp only [act, act?, ask?]
  cases s.registryNumber? name with
  | none => rfl
  | some n =>
    cases s.weaks.get? weak with
    | none => rfl
    | some weak =>
      cases weak with
      | none => rfl
      | some o =>
        by_cases live : s.world.heap.isLive o = true
        · simp [World.tryObserve, World.upgrade?, live, Action.upgraded?]
        · simp [World.tryObserve, World.upgrade?, live, Action.upgraded?]

/-- A call of a registry or of a labeler has the same effect on lifetimes in corresponding sessions,
which is none. -/
theorem Corresponds.asks (corresponds : s.Corresponds t) {action : Action}
    (asks : action.asks = true) (alloc alloc' : Allocator) :
    s.fate alloc action = t.fate alloc' action ∧
      (s.act alloc action).1.Corresponds (t.act alloc' action).1 := by
  have first := corresponds_act_of_asks (s := s) asks alloc
  have second := corresponds_act_of_asks (s := t) asks alloc'
  have after := first.symm.trans (corresponds.trans second)
  have upgraded : action.upgraded? (s.act alloc action).2 =
      action.upgraded? (t.act alloc' action).2 := by
    cases action with
    | handle action => cases asks
    | label action => rfl
    | registry name call =>
      cases call with
      | tryObserve weak =>
        have weaks : s.weaks = t.weaks := by rw [corresponds.names]
        rw [upgraded?_tryObserve, upgraded?_tryObserve, corresponds.registryNumber?, weaks,
          funext corresponds.world.isLive_eq]
      | _ => rfl
  refine ⟨?_, after⟩
  rw [fate, fate, destroyedObjects_of_asks asks, destroyedObjects_of_asks asks,
    after.world.destroyed, funext after.world.strongCount_eq, upgraded]

theorem Corresponds.act (corresponds : s.Corresponds t) {alloc alloc' : Allocator}
    (fits : alloc.fits = alloc'.fits) (action : Action) :
    s.fate alloc action = t.fate alloc' action ∧
      (s.act alloc action).1.Corresponds (t.act alloc' action).1 := by
  cases action with
  | handle action => exact corresponds.handle fits action
  | registry name call => exact corresponds.asks rfl alloc alloc'
  | label action => exact corresponds.asks rfl alloc alloc'

/-- What is left of a run in which every action is marked as kept or left out. -/
def kept (steps : List (Action × Bool)) : List Action := (steps.filter Prod.snd).map Prod.fst

/-- Sessions still correspond after one of them has left out calls of registries and labelers. -/
theorem Corresponds.run (corresponds : s.Corresponds t) {alloc alloc' : Allocator}
    (fits : alloc.fits = alloc'.fits) (steps : List (Action × Bool))
    (left : ∀ step ∈ steps, step.2 = false → step.1.asks = true) :
    (s.run alloc (steps.map Prod.fst)).1.Corresponds (t.run alloc' (kept steps)).1 := by
  induction steps generalizing s t with
  | nil => exact corresponds
  | cons step rest ih =>
    obtain ⟨action, keep⟩ := step
    have later : ∀ step ∈ rest, step.2 = false → step.1.asks = true :=
      fun step mem => left step (List.mem_cons_of_mem _ mem)
    cases keep with
    | true => exact ih (corresponds.act fits action).2 later
    | false =>
      -- Only the first of the two takes a step, and still corresponds to the second.
      have asks : action.asks = true := left (action, false) List.mem_cons_self rfl
      exact ih ((corresponds_act_of_asks asks alloc).symm.trans corresponds) later

/-! ### Ends -/

/-- How many strong handles there are to an object: under names of handles and registries, in
labelers, and in what other objects hold. -/
def handleCount (s : Session) (o : Object) : Nat :=
  s.strongHandles.count o + s.world.heap.linkCount o

/-- No object has been destroyed yet, and every new object is held. -/
structure Prepares (s p : Session) : Prop where
  live : ∀ o, s.world.heap.isLive o = true → p.world.heap.isLive o = true
  new : ∀ o, p.world.heap.isLive o = true → s.world.heap.isLive o = true ∨ o ∈ p.strongHandles
  destroyed : p.world.destroyed = s.world.destroyed

namespace Prepares

variable {p : Session}

theorem of_isLive (live : ∀ o, p.world.heap.isLive o = s.world.heap.isLive o)
    (destroyed : p.world.destroyed = s.world.destroyed) : s.Prepares p where
  live o alive := by rwa [live]
  new o alive := by rw [live] at alive; exact Or.inl alive
  destroyed := destroyed

theorem of_strongCount
    (strong : ∀ o, p.world.heap.strongCount o = s.world.heap.strongCount o)
    (destroyed : p.world.destroyed = s.world.destroyed) : s.Prepares p :=
  of_isLive (fun o => by rw [Bool.eq_iff_iff, Heap.isLive_iff, Heap.isLive_iff, strong]) destroyed

theorem same (world : p.world = s.world) : s.Prepares p :=
  of_strongCount (fun o => by rw [world]) (by rw [world])

theorem retain {o : Object} (live : s.world.heap.isLive o = true)
    (world : p.world = s.world.retain o) : s.Prepares p := by
  refine of_isLive (fun q => ?_) (by rw [world]; rfl)
  rw [world]
  exact Heap.isLive_retain live q

theorem create {alloc : Allocator} {layout : Layout} {content : Content}
    (live : ∀ o ∈ content.owned, s.world.heap.isLive o = true)
    (heap : p.world.heap = (s.world.create alloc layout content).1.heap)
    (new : s.world.heap.nextObject ∈ p.strongHandles)
    (destroyed : p.world.destroyed = s.world.destroyed) : s.Prepares p where
  live o alive := by
    rw [heap]
    exact (World.isLive_create live o).mpr (Or.inl alive)
  new o alive := by
    rw [heap] at alive
    rcases (World.isLive_create live o).mp alive with old | rfl
    · exact Or.inl old
    · exact Or.inr new
  destroyed := destroyed

theorem releaseWeak (strong : ∀ o, p.world.heap.strongCount o = s.world.heap.strongCount o)
    (destroyed : p.world.destroyed = s.world.destroyed) (weak : Option Object) :
    s.Prepares (p.releaseWeak weak) := by
  cases weak with
  | none => exact of_strongCount strong destroyed
  | some q =>
    exact of_strongCount (fun o => (Heap.strongCount_releaseWeak _ q o).trans (strong o)) destroyed

theorem bindWeak {w : World} (strong : ∀ o, w.heap.strongCount o = s.world.heap.strongCount o)
    (destroyed : w.destroyed = s.world.destroyed) (name : String) (weak : Option Object) :
    s.Prepares ({ s with world := w }.bindWeak name weak) :=
  releaseWeak (p := { s with world := w, weaks := s.weaks.insert name weak }) strong destroyed _

end Prepares

theorem mem_stageHandle (s : Session) (slot : Slot) (handle : Handle) :
    handle.object ∈ (s.stageHandle slot handle).session.strongHandles :=
  handle_mem (s := (s.stageHandle slot handle).session)
    (Bindings.get?_insert_self s.handles slot handle)

section Stages

variable {alloc : Allocator} {staged : Staged}

theorem prepares_create {slot : Slot} {kind : Kind} {name : String} (held : s.Held)
    (h : s.stage? alloc (.create slot kind name) = some staged) : s.Prepares staged.session := by
  obtain ⟨content, found, done⟩ := Option.bind_eq_some_iff.mp h
  rw [World.create_eq] at done
  obtain rfl := Option.some.inj done
  have live := fun o mem => held o ((held_of_content? found).1 o mem)
  exact .create live (by rw [World.create_eq]; rfl) (mem_stageHandle _ slot _) rfl

theorem prepares_link {node target : Slot} (held : s.Held)
    (h : s.stage? alloc (.link node target) = some staged) : s.Prepares staged.session := by
  obtain ⟨⟨next, answer⟩, whole, rfl⟩ := Option.map_eq_some_iff.mp h
  obtain ⟨nodeHandle, -, rest⟩ := Option.bind_eq_some_iff.mp whole
  obtain ⟨targetHandle, found, rest⟩ := Option.bind_eq_some_iff.mp rest
  obtain ⟨world, linked, done⟩ := Option.bind_eq_some_iff.mp rest
  obtain ⟨rfl, -⟩ := Prod.mk.inj (Option.some.inj done)
  unfold World.link? at linked
  split at linked
  · obtain rfl := Option.some.inj linked
    refine .of_isLive (fun o => ?_) rfl
    rw [Bool.eq_iff_iff, Heap.isLive_iff, Heap.strongCount_setContent, ← Heap.isLive_iff,
      Heap.isLive_retain (held _ (handle_mem found))]
  · cases linked

theorem prepares_unlink {node : Slot} (h : s.stage? alloc (.unlink node) = some staged) :
    s.Prepares staged.session := by
  obtain ⟨handle, -, done⟩ := Option.bind_eq_some_iff.mp h
  split at done
  · obtain rfl := Option.some.inj done
    exact .of_strongCount (fun o => Heap.strongCount_setContent _ _ o _) rfl
  · cases done

theorem prepares_downgrade {source : Slot} {target : String}
    (h : s.stage? alloc (.downgrade source target) = some staged) :
    s.Prepares staged.session := by
  obtain ⟨⟨next, answer⟩, made, rfl⟩ := Option.map_eq_some_iff.mp h
  obtain ⟨handle, -, done⟩ := Option.bind_eq_some_iff.mp made
  obtain ⟨rfl, -⟩ := Prod.mk.inj (Option.some.inj done)
  exact .bindWeak (w := s.world.retainWeak handle.object)
    (Heap.strongCount_retainWeak s.world.heap _) rfl target _

theorem prepares_weakClone {source target : String}
    (h : s.stage? alloc (.weakClone source target) = some staged) :
    s.Prepares staged.session := by
  obtain ⟨⟨next, answer⟩, made, rfl⟩ := Option.map_eq_some_iff.mp h
  obtain ⟨weak, -, done⟩ := Option.bind_eq_some_iff.mp made
  obtain ⟨rfl, -⟩ := Prod.mk.inj (Option.some.inj done)
  cases weak with
  | none => exact .bindWeak (fun o => rfl) rfl target none
  | some p =>
    exact .bindWeak (w := s.world.retainWeak p)
      (Heap.strongCount_retainWeak s.world.heap _) rfl target _

theorem prepares_weakDrop {name : String} (h : s.stage? alloc (.weakDrop name) = some staged) :
    s.Prepares staged.session := by
  obtain ⟨⟨next, answer⟩, dropped, rfl⟩ := Option.map_eq_some_iff.mp h
  obtain ⟨weak, -, done⟩ := Option.bind_eq_some_iff.mp dropped
  obtain ⟨rfl, -⟩ := Prod.mk.inj (Option.some.inj done)
  exact .releaseWeak (s := s) (p := { s with weaks := s.weaks.erase name }) (fun o => rfl) rfl weak

theorem prepares_upgrade {weak : String} {target : Slot}
    (h : s.stage? alloc (.upgrade weak target) = some staged) : s.Prepares staged.session := by
  obtain ⟨weak, -, done⟩ := Option.bind_eq_some_iff.mp h
  split at done
  · obtain rfl := Option.some.inj done
    exact .same rfl
  · next world object upgraded =>
    obtain rfl := Option.some.inj done
    obtain ⟨-, live, rfl⟩ := World.upgrade?_eq_some upgraded
    exact .retain live rfl

theorem prepares_openRegistry {name : String} {options : Option Json.Value}
    (h : s.stage? alloc (.openRegistry name options) = some staged) :
    s.Prepares staged.session := by
  simp only [stage?] at h
  split at h
  · obtain rfl := Option.some.inj h
    exact .same rfl
  · next registry _ =>
    obtain rfl := Option.some.inj h
    have bound := Bindings.get?_insert_self s.registries name s.world.heap.nextObject
    rw [World.createRegistry_eq]
    exact .create (fun o mem => by cases mem) rfl (registry_mem bound) rfl

theorem prepares_retainLabeler {labeler : Labeler}
    (live : ∀ o ∈ labeler.owned, s.world.heap.isLive o = true) (name : String) :
    s.Prepares (stageLabeler { s with world := labeler.owned.foldl World.retain s.world } name
      labeler).session := by
  cases labeler with
  | processWide => exact .same rfl
  | shared object => exact .retain (live object List.mem_cons_self) rfl

/-- The first stage of an action destroys no object. -/
theorem prepares_stage? {action : HandleAction} (held : s.Held)
    (h : s.stage? alloc action = some staged) : s.Prepares staged.session := by
  cases action with
  | create => exact prepares_create held h
  | clone source target | coerce source view target =>
    obtain ⟨handle, found, done⟩ := Option.bind_eq_some_iff.mp h
    obtain rfl := Option.some.inj done
    exact .retain (held _ (handle_mem found)) rfl
  | shareRegistry registry target =>
    obtain ⟨object, found, done⟩ := Option.bind_eq_some_iff.mp h
    obtain rfl := Option.some.inj done
    exact .retain (held _ (registry_mem found)) rfl
  | drop slot | dropRegistry slot | dropLabeler slot =>
    obtain ⟨found, -, done⟩ := Option.bind_eq_some_iff.mp h
    obtain rfl := Option.some.inj done
    exact .same rfl
  | link => exact prepares_link held h
  | unlink => exact prepares_unlink h
  | counts slot =>
    obtain ⟨⟨next, answer⟩, counted, rfl⟩ := Option.map_eq_some_iff.mp h
    obtain ⟨handle, -, done⟩ := Option.bind_eq_some_iff.mp counted
    obtain ⟨rfl, -⟩ := Prod.mk.inj (Option.some.inj done)
    exact .same rfl
  | downgrade => exact prepares_downgrade h
  | weakNew target =>
    obtain rfl := Option.some.inj h
    exact .bindWeak (fun o => rfl) rfl target none
  | weakClone => exact prepares_weakClone h
  | weakDrop => exact prepares_weakDrop h
  | upgrade => exact prepares_upgrade h
  | openRegistry => exact prepares_openRegistry h
  | openLabeler name registry =>
    obtain ⟨labeler, found, done⟩ := Option.bind_eq_some_iff.mp h
    obtain rfl := Option.some.inj done
    exact prepares_retainLabeler (fun o owned => held o (mem_of_registryRef? found owned)) name
  | cloneLabeler source target =>
    obtain ⟨labeler, found, done⟩ := Option.bind_eq_some_iff.mp h
    obtain rfl := Option.some.inj done
    exact prepares_retainLabeler (fun o owned => held o (labeler_mem found owned)) target

end Stages

/-- An action changes no lifetime, or prepares and then drops. -/
theorem act_cases (held : s.Held) (alloc : Allocator) (action : Action) :
    (s.destroyedObjects alloc action = [] ∧ s.Corresponds (s.act alloc action).1) ∨
      ∃ staged : Staged, s.Prepares staged.session ∧
        s.destroyedObjects alloc action = staged.destroyedObjects ∧
        (s.act alloc action).1 = staged.session.release staged.dropped := by
  by_cases asks : action.asks = true
  · exact Or.inl ⟨destroyedObjects_of_asks asks alloc, corresponds_act_of_asks asks alloc⟩
  · cases action with
    | registry name call | label call => exact absurd rfl asks
    | handle action =>
      rw [destroyedObjects, act, act?, handle?_eq]
      cases found : s.stage? alloc action with
      | none => exact Or.inl ⟨rfl, Corresponds.refl s⟩
      | some staged => exact Or.inr ⟨staged, prepares_stage? held found, rfl, rfl⟩

section Ends

variable (sound : s.scene.Sound) (alloc : Allocator) (action : Action)
include sound

theorem strongCount_eq_handleCount (o : Object) :
    s.world.heap.strongCount o = s.handleCount o :=
  sound.counted.strong_eq o

theorem sound_act : (s.act alloc action).1.scene.Sound :=
  (run_act (held_of_scene sound) alloc action).sound sound

theorem mem_destroyedObjects_iff_live (o : Object) :
    o ∈ s.destroyedObjects alloc action ↔
      s.world.heap.isLive o = true ∧ (s.act alloc action).1.world.heap.isLive o = false := by
  have later := held_of_scene (sound_act sound alloc action)
  obtain ⟨none, corresponds⟩ | ⟨staged, prepares, destroyedObjects, next⟩ :=
    act_cases (held_of_scene sound) alloc action
  · rw [none, ← corresponds.world.isLive_eq]
    simp
  · rw [next] at later ⊢
    rw [destroyedObjects, Staged.destroyedObjects, World.mem_destroyedObjects]
    refine and_congr_left fun dead => ⟨fun live => ?_, prepares.live o⟩
    -- A new object is held by name, so that it is still live in the end.
    refine (prepares.new o live).resolve_right fun mem => ?_
    exact Bool.false_ne_true (dead.symm.trans (later o mem))

/-- An action destroys the objects whose last strong handle is dropped. -/
theorem mem_destroyedObjects (o : Object) :
    o ∈ s.destroyedObjects alloc action ↔
      0 < s.handleCount o ∧ (s.act alloc action).1.handleCount o = 0 := by
  rw [mem_destroyedObjects_iff_live sound, ← Bool.not_eq_true, Heap.isLive_iff, Heap.isLive_iff,
    strongCount_eq_handleCount sound, strongCount_eq_handleCount (sound_act sound alloc action),
    Nat.not_lt, Nat.le_zero]

theorem nodup_destroyedObjects : (s.destroyedObjects alloc action).Nodup := by
  obtain ⟨none, -⟩ | ⟨staged, -, destroyedObjects, -⟩ :=
    act_cases (held_of_scene sound) alloc action
  · rw [none]
    exact List.nodup_nil
  · rw [destroyedObjects]
    exact World.nodup_destroyedObjects _ _

/-- The reported destructions are the names of the destroyed objects, in order. -/
theorem destroyed_act :
    (s.act alloc action).1.world.destroyed.map Destruction.name =
      s.world.destroyed.map Destruction.name ++ (s.destroyedObjects alloc action).filterMap fun o =>
        ((s.act alloc action).1.world.heap.content? o).bind Content.name? := by
  obtain ⟨none, corresponds⟩ | ⟨staged, prepares, destroyedObjects, next⟩ :=
    act_cases (held_of_scene sound) alloc action
  · rw [none, corresponds.world.destroyed, List.filterMap_nil, List.append_nil]
  · simp only [destroyedObjects, next, Staged.destroyedObjects, release, World.content?_settle]
    rw [World.destroyed_settle, prepares.destroyed]

end Ends

/-- Registration never extends a lifetime. If calls of registries and of labelers are left out of a
run, then every action does the same to lifetimes as before, wherever blocks are put. In every run,
an action destroys just the objects whose last strong handle is dropped, each once and in the order
in which their names are reported; a call of a registry or of a labeler destroys no object. In a
destruction, an object dies when the last strong handle to it is dropped. No sweep destroys an
object. -/
theorem registration_extends_no_lifetime (alloc : Allocator) (start : Placement) :
    (∀ (s : Session) (steps : List (Action × Bool)),
      (∀ step ∈ steps, step.2 = false → step.1.asks = true) → ∀ action,
      (s.run alloc (steps.map Prod.fst)).1.fate alloc action =
        (s.run (alloc.placing start) (kept steps)).1.fate (alloc.placing start) action) ∧
    (∀ (actions : List Action) (action : Action) (s next : Session),
      (({} : Session).run alloc actions).1 = s → (s.act alloc action).1 = next →
      (∀ o, s.world.heap.strongCount o = s.handleCount o) ∧
      (∀ o, o ∈ s.destroyedObjects alloc action ↔ 0 < s.handleCount o ∧ next.handleCount o = 0) ∧
      (s.destroyedObjects alloc action).Nodup ∧
      (action.asks = true → s.destroyedObjects alloc action = []) ∧
      next.world.destroyed.map Destruction.name =
        s.world.destroyed.map Destruction.name ++
          (s.destroyedObjects alloc action).filterMap fun o =>
            (next.world.heap.content? o).bind Content.name?) ∧
    (∀ (w : World) (task : Task) (o : Object), w.heap.isLive o = true →
      ((w.perform task).1.heap.isLive o = false ↔
        task = .release o ∧ w.heap.strongCount o = 1)) ∧
    (∀ (w : World) (n : Nat) (o : Object),
      ((w.purge n).1.destroyed = w.destroyed ∧
        (w.purge n).1.heap.strongCount = w.heap.strongCount) ∧
      (w.observe n o).1.destroyed = w.destroyed ∧
        (w.observe n o).1.heap.strongCount = w.heap.strongCount) := by
  refine ⟨fun s steps left action => ?_, ?_, fun w task o live => World.dies_perform live task,
    fun w n o => ?_⟩
  · have fits : alloc.fits = (alloc.placing start).fits := rfl
    exact (((Corresponds.refl s).run fits steps left).act fits action).1
  · rintro actions action s next rfl rfl
    have sound := (reachable_run alloc actions).sound
    exact ⟨strongCount_eq_handleCount sound, mem_destroyedObjects sound alloc action,
      nodup_destroyedObjects sound alloc action, fun asks => destroyedObjects_of_asks asks alloc,
      destroyed_act sound alloc action⟩
  · exact ⟨⟨rfl, funext (World.strongCount_apply w n _)⟩, rfl,
      funext (World.strongCount_apply w n _)⟩

/-- A node that holds the last handle to a registered probe, and calls that are left out. -/
def attended : List (Action × Bool) :=
  [(.handle (.openRegistry "r" none), true), (.handle (.openLabeler "l" (.named "r")), true),
    (.handle (.create (.named "n") .node "n"), true),
    (.handle (.create (.named "p") .probe "p"), true),
    (.handle (.link (.named "n") (.named "p")), true),
    (.handle (.downgrade (.named "p") "w"), true),
    (.registry (.named "r") (.observe (.named "p")), false),
    (.handle (.drop (.named "p")), true),
    (.registry (.named "r") (.tryObserve "w"), false),
    (.label (.field "l" (.named "n") "x" none), false),
    (.handle (.create (.named "u") (.purger (.named "r")) "u"), true),
    (.handle (.link (.named "n") (.named "u")), true), (.handle (.drop (.named "u")), true),
    (.handle (.dropLabeler "l"), true), (.registry (.named "r") .purge, false),
    (.handle (.dropRegistry "r"), true)]

/-- The destruction of the node destroys the probe, then the purger, and last the registry, to which
only the purger still has a handle. -/
theorem registration_extends_no_lifetime_attended :
    (({} : Session).run .recycling (attended.map Prod.fst)).1.fate .recycling
        (.handle (.drop (.named "n"))) =
      (({} : Session).run .beyond (kept attended)).1.fate .beyond
        (.handle (.drop (.named "n"))) ∧
    ((({} : Session).run .recycling (attended.map Prod.fst)).1.fate .recycling
        (.handle (.drop (.named "n")))).destroyed = [⟨1⟩, ⟨2⟩, ⟨3⟩, ⟨0⟩] :=
  ⟨(registration_extends_no_lifetime .recycling Placement.beyond).1 {} attended (by decide) _,
    by decide +kernel⟩

end Session

end WeakIdentity
