import Mathlib.Order.Bounds.Basic
import WeakIdentity.Proofs.Registry.Churn
import WeakIdentity.Proofs.Scene.Insertion
import WeakIdentity.Proofs.Session.Idle
import WeakIdentity.Session.Request

/-! Churn: objects that are created, observed by a registry and dropped, one after another. Each of
them is one insertion, which leaves a dead entry: after `n` objects the table has been swept once
for every whole table that came before the last insertion. -/

namespace WeakIdentity

namespace World

variable {w : World} {strong weak : Multiset Object} {k : Nat} {o : Object} {content : Content}

/-! ### Dropping -/

/-- A registry does not change while handles are dropped that are not the last ones. -/
theorem registry_settle_more {objects : List Object}
    (more : ∀ p ∈ objects, objects.count p < w.heap.strongCount p) (o : Object) :
    (w.settle (objects.map Task.release ++ [.discard o])).registry k = w.registry k := by
  induction objects generalizing w with
  | nil =>
    rw [List.map_nil, List.nil_append, settle, perform, List.nil_append, settle]
    rfl
  | cons p rest ih =>
    have count := more p List.mem_cons_self
    rw [List.count_cons_self] at count
    obtain ⟨block, hb, -⟩ := Heap.block_of_strong (Nat.zero_lt_of_lt count)
    have several : block.strong ≠ 1 := by
      rw [Heap.strongCount, hb, Option.elim_some] at count
      omega
    rw [List.map_cons, List.cons_append, settle, perform_more hb several, List.nil_append]
    -- One handle less, and one less to drop.
    refine ih fun q mem => ?_
    have left := more q (List.mem_cons_of_mem _ mem)
    rw [Heap.strongCount_unretain]
    by_cases same : q = p
    · subst same
      rw [List.count_cons_self] at left
      rw [if_pos rfl]
      omega
    · rw [List.count_cons_of_ne (Ne.symm same)] at left
      rwa [if_neg same, Nat.sub_zero]

theorem registry_apply_of_ne {n : Nat} (other : k ≠ n) (change : Change) :
    (w.apply n change).registry k = w.registry k := by
  rw [registry_eq_getD, registry_eq_getD, apply, Array.getElem?_setIfInBounds_ne other.symm]

/-- A destructor does not change a registry, unless it purges it or is that of the registry. -/
theorem registry_finalize (other : ∀ n, content ≠ .registry n)
    (spares : ∀ name target, content = .purger name target → w.refNumber? target ≠ some k) :
    (w.finalize content).registry k = w.registry k := by
  cases content with
  | registry n => exact absurd rfl (other n)
  | purger name target =>
    cases number : w.refNumber? target with
    | none =>
      rw [finalize, number]
      rfl
    | some n =>
      have apart : k ≠ n := by
        rintro rfl
        exact spares name target rfl number
      rw [finalize, number]
      exact registry_apply_of_ne apart _
  | _ => rfl

/-- A registry does not change with the destruction of an object, if the destructor does not change
it and no other object is destroyed with it. -/
theorem registry_release (found : w.heap.content? o = some content)
    (last : w.heap.strongCount o = 1) (other : ∀ n, content ≠ .registry n)
    (spares : ∀ name target, content = .purger name target → w.refNumber? target ≠ some k)
    (more : ∀ p ∈ content.owned, p ≠ o ∧ content.owned.count p < w.heap.strongCount p) :
    (w.release o).registry k = w.registry k := by
  obtain ⟨block, hb, rfl⟩ := block_of_content found
  rw [Heap.strongCount, hb] at last
  rw [release, settle, perform_last hb last, List.append_nil, registry_settle_more,
    registry_finalize other]
  · rfl
  · intro name target content
    rw [refNumber?_congr (Heap.content?_unretain w.heap o)]
    exact spares name target content
  · intro p mem
    obtain ⟨apart, count⟩ := more p mem
    rwa [strongCount_finalize, Heap.strongCount_unretain, if_neg apart, Nat.sub_zero]

/-- An object is dead after its last handle is dropped, and objects that were dead stay so. -/
theorem dead_release (last : w.heap.strongCount o = 1) {p : Object}
    (gone : p = o ∨ w.heap.isLive p = false) : (w.release o).heap.isLive p = false := by
  rw [← Bool.not_eq_true]
  intro live
  rw [release, settle] at live
  obtain ⟨before, spared⟩ := (isLive_perform w _ p).mp (live_of_live_settle live)
  rcases gone with rfl | dead
  · exact spared (if_pos last)
  · rw [dead] at before
    cases before

/-! ### One object -/

/-- Creates an object, lets a registry observe it and drops it. -/
def churn (w : World) (alloc : Allocator) (layout : Layout) (content : Content) (k : Nat) : World :=
  ((w.create alloc layout content).1.observe k w.heap.nextObject).1.release w.heap.nextObject

section Churn

variable (alloc : Allocator) (layout : Layout)

/-- Creating an object that is no registry changes no registry number. -/
theorem registryNumber?_create (other : ∀ n, content ≠ .registry n) (p : Object) :
    (w.create alloc layout content).1.registryNumber? p = w.registryNumber? p := by
  refine Option.ext fun n => ?_
  rw [registryNumber?_eq_some, registryNumber?_eq_some, content?_create]
  split
  · next new =>
    rw [new, Heap.content?, Heap.block?_nextObject]
    exact iff_of_false (fun same => other n (Option.some.inj same)) (by simp)
  · exact Iff.rfl

theorem registryNumber?_churn (other : ∀ n, content ≠ .registry n) (p : Object) :
    (w.churn alloc layout content k).registryNumber? p = w.registryNumber? p := by
  refine Eq.trans (registryNumber?_congr ?_) (registryNumber?_create alloc layout other p)
  rw [churn, release, content?_settle, observe_eq, content?_apply]

/-- The registry after it has observed the new object. -/
theorem registry_observe_created (content : Content) (bound : k < w.registries.size) :
    ((w.create alloc layout content).1.observe k w.heap.nextObject).1.registry k =
      ((w.registry k).observe (w.create alloc layout content).1.heap.isLive
        ((w.create alloc layout content).1.heap.address w.heap.nextObject)
        w.heap.nextObject).1.registry := by
  have there : k < (w.create alloc layout content).1.registries.size := bound
  rw [observe_eq, registry_apply there, if_pos rfl]
  rfl

variable (sound : w.Sound strong weak) (held : ∀ o ∈ content.owned, o ∈ strong)
include sound held

/-- There is one handle to the new object. To each object that it owns there is a handle besides
those in it. -/
theorem strongCount_created :
    (w.create alloc layout content).1.heap.strongCount w.heap.nextObject = 1 ∧
      ∀ p ∈ content.owned, p ≠ w.heap.nextObject ∧
        content.owned.count p < (w.create alloc layout content).1.heap.strongCount p := by
  have retained := sound.retainAll fun o mem => sound.counted.live_of_mem (held o mem)
  have next : (content.owned.foldl Heap.retain w.heap).nextObject = w.heap.nextObject :=
    Heap.nextObject_foldl_retain _ _
  rw [create_eq]
  dsimp only
  constructor
  · rw [Heap.strongCount_allocate, next, if_pos rfl, ← next, Heap.strongCount,
      Heap.block?_nextObject]
    rfl
  · intro p mem
    have apart : p ≠ w.heap.nextObject :=
      Heap.ne_nextObject_of_weak (sound.counted.reserved_of_live
        (sound.counted.live_of_mem (held p mem)))
    have count := retained.counted.strong_eq p
    have outside := Multiset.count_pos.mpr (held p mem)
    rw [Multiset.count_add, Multiset.coe_count] at count
    rw [Heap.strongCount_allocate, next, if_neg apart, count]
    exact ⟨apart, by omega⟩

/-- The dead objects of a table stay dead when an object is created. -/
theorem dead_create (dead : ∀ o ∈ (w.registry k).tokens, w.heap.isLive o = false) :
    ∀ o ∈ (w.registry k).tokens, (w.create alloc layout content).1.heap.isLive o = false := by
  intro o mem
  obtain ⟨entry, there, rfl⟩ := List.mem_map.mp mem
  rw [← Bool.not_eq_true]
  intro live
  have before := live_of_live_create (fun p own => sound.counted.live_of_mem (held p own)) live
    (Heap.ne_nextObject_of_weak (sound.counted.token_reserved there))
  rw [dead _ mem] at before
  cases before

variable (other : ∀ n, content ≠ .registry n)
include other

/-- A new object has no entry. -/
theorem idOf_created (k : Nat) :
    (w.create alloc layout content).1.idOf k w.heap.nextObject = none := by
  have after := sound.create alloc layout held other
  have live := after.counted.live_of_mem (Multiset.mem_cons_self _ _)
  exact idOf_nextObject sound after rfl live

/-- A new object gets the next id, and the counters move on by one object. -/
theorem observe_created {threshold i : Nat} (accepted : 0 < threshold)
    (bound : k < w.registries.size) (churned : (w.registry k).Churned threshold i)
    (dead : ∀ o ∈ (w.registry k).tokens, w.heap.isLive o = false) {observed : World}
    {id : ObjectId}
    (asked : (w.create alloc layout content).1.observe k w.heap.nextObject = (observed, id)) :
    id = .nth i ∧ (observed.registry k).size = i % threshold + 1 ∧
      (observed.registry k).Churned threshold (i + 1) := by
  have unknown := idOf_created alloc layout sound held other k
  have after := registry_observe_created (k := k) alloc layout content bound
  have asleep := dead_create (k := k) alloc layout sound held dead
  obtain ⟨next, size⟩ := churned.observe accepted (Option.map_eq_none_iff.mp unknown)
    w.heap.nextObject asleep
  have given := congrArg Prod.snd (observe_of_unknown unknown)
  rw [asked] at after given
  rw [after]
  exact ⟨given.trans (congrArg ObjectId.mk churned.minted), size, next⟩

variable
  (spares : ∀ name target, content = .purger name target → w.refNumber? target ≠ some k)
include spares

/-- If the destructor does not purge the registry, then all that changes it is the observation. -/
theorem registry_churn :
    (w.churn alloc layout content k).registry k =
      ((w.create alloc layout content).1.observe k w.heap.nextObject).1.registry k := by
  obtain ⟨last, more⟩ := strongCount_created alloc layout sound held
  refine registry_release ?_ ?_ other ?_ ?_
  · rw [observe_eq, content?_apply, content?_create, if_pos rfl]
  · rw [observe_eq, strongCount_apply, last]
  · intro name target purger
    rw [observe_eq, refNumber?_of_registryNumber? fun p => registryNumber?_apply _ k _ p,
      refNumber?_of_registryNumber? (registryNumber?_create alloc layout other)]
    exact spares name target purger
  · intro p mem
    rw [observe_eq, strongCount_apply]
    exact more p mem

/-- Afterwards all entries are those of dead objects, if they were so before. -/
theorem dead_churn (bound : k < w.registries.size)
    (dead : ∀ o ∈ (w.registry k).tokens, w.heap.isLive o = false) :
    ∀ o ∈ ((w.churn alloc layout content k).registry k).tokens,
      (w.churn alloc layout content k).heap.isLive o = false := by
  intro o mem
  obtain ⟨last, -⟩ := strongCount_created alloc layout sound held
  rw [registry_churn alloc layout sound held other spares,
    registry_observe_created alloc layout content bound] at mem
  refine dead_release (by rw [observe_eq, strongCount_apply, last]) ?_
  refine (Registry.mem_tokens_of_observe mem).imp_right fun old => ?_
  rw [observe_eq, isLive_apply]
  exact dead_create alloc layout sound held dead o old

end Churn

end World

namespace Bindings

variable {κ α : Type} [DecidableEq κ]

/-- Binding a free name and erasing it again gives the same bindings. -/
theorem erase_insert {b : Bindings κ α} {name : κ} (free : b.get? name = none) (value : α) :
    (b.insert name value).erase name = b := by
  obtain ⟨pairs, distinct⟩ := b
  have others : ∀ pair ∈ pairs, pair.1 ≠ name := by
    intro pair mem
    have apart := List.find?_eq_none.mp (Option.map_eq_none_iff.mp free) pair mem
    simpa using apart
  simp only [insert, erase, mk.injEq]
  simpa using others

end Bindings

/-- One object of a churn: the slot of its handle, its kind and the name that it reports. -/
structure ChurnStep where
  slot : Slot
  kind : Kind
  name : String
  deriving DecidableEq, Repr

/-- Creates the object, lets a registry observe it, reads the size of the table and drops the
object. -/
def ChurnStep.actions (registry : RegistryName) (step : ChurnStep) : List Action :=
  [.handle (.create step.slot step.kind step.name), .registry registry (.observe step.slot),
    .registry registry .size, .handle (.drop step.slot)]

/-- The registry that the destructors of a kind purge. -/
def Kind.purged? : Kind → Option RegistryName
  | .purger registry => some registry
  | _ => none

namespace Session

variable {s : Session} {registry : RegistryName} {k : Nat} {step : ChurnStep} {alloc : Allocator}
  {content : Content}

/-- The object can be created in a free slot, and its destructor does not purge the registry of a
number. -/
structure Admits (s : Session) (k : Nat) (step : ChurnStep) : Prop where
  free : s.handles.get? step.slot = none
  possible : (s.content? step.name step.kind).isSome
  spares : step.kind.purged?.bind s.registryNumber? ≠ some k

theorem registryNumber?_of_world {w : World}
    (same : ∀ o, w.registryNumber? o = s.world.registryNumber? o)
    (handles : Bindings Slot Handle) (name : RegistryName) :
    ({ s with world := w, handles } : Session).registryNumber? name = s.registryNumber? name := by
  cases name with
  | processWide => rfl
  | named name => exact Option.bind_congr fun o _ => same o

theorem registryNumber?_eq_refNumber? {name : RegistryName} {ref : RegistryRef}
    (h : s.registryRef? name = some ref) : s.registryNumber? name = s.world.refNumber? ref := by
  cases name with
  | processWide =>
    obtain rfl := Option.some.inj h
    rfl
  | named name =>
    obtain ⟨object, found, rfl⟩ := Option.map_eq_some_iff.mp h
    rw [registryNumber?, found]
    rfl

/-- The content of the object does not purge the registry either. -/
theorem Admits.spares_content (admits : s.Admits k step)
    (made : s.content? step.name step.kind = some content) (name : String) (target : RegistryRef)
    (purger : content = .purger name target) : s.world.refNumber? target ≠ some k := by
  have spares := admits.spares
  obtain ⟨slot, kind, called⟩ := step
  subst purger
  cases kind with
  | purger purged =>
    obtain ⟨ref, found, same⟩ := Option.map_eq_some_iff.mp made
    obtain ⟨-, rfl⟩ := Content.purger.inj same
    rw [← registryNumber?_eq_refNumber? found]
    exact spares
  | keeper kept =>
    obtain ⟨ref, -, same⟩ := Option.map_eq_some_iff.mp made
    cases same
  | _ => cases Option.some.inj made

/-- Creating an object in a free slot drops no handle. -/
theorem act_create (free : s.handles.get? step.slot = none)
    (made : s.content? step.name step.kind = some content) (alloc : Allocator) :
    s.act alloc (.handle (.create step.slot step.kind step.name)) =
      ({ s with
          world := (s.world.create alloc step.kind.layout content).1
          handles := s.handles.insert step.slot { object := s.world.heap.nextObject } },
        .done) := by
  simp [act, act?, handle?, made, bindHandle, free, release_nil, World.create_eq]

/-- The answers for one object, and the session afterwards. -/
theorem run_churnStep (number : s.registryNumber? registry = some k)
    (free : s.handles.get? step.slot = none) (made : s.content? step.name step.kind = some content)
    {observed : World} {id : ObjectId}
    (asked : (s.world.create alloc step.kind.layout content).1.observe k s.world.heap.nextObject =
      (observed, id)) :
    s.run alloc (step.actions registry) =
      ({ s with world := s.world.churn alloc step.kind.layout content k },
        [.done, .id id, .count (observed.registry k).size, .done]) := by
  have other := (held_of_content? made).2
  have numbers := World.registryNumber?_create (w := s.world) alloc step.kind.layout other
  have numbers' : ∀ o, observed.registryNumber? o = s.world.registryNumber? o := by
    intro o
    have after : _ = observed := congrArg Prod.fst asked
    rw [← numbers o, ← after, World.observe_eq, World.registryNumber?_apply]
  have numbered := fun handles => (registryNumber?_of_world numbers handles registry).trans number
  have numbered' := fun handles => (registryNumber?_of_world numbers' handles registry).trans number
  -- The slot is free again after the drop, so that all names are as before.
  rw [ChurnStep.actions, run_cons, act_create free made, World.churn, asked]
  simp only [run, act, act?, handle?, ask?, numbered, asked, numbered',
    Bindings.get?_insert_self, Option.bind_eq_bind, Option.bind_some, Option.getD_some, release,
    Bindings.erase_insert free]
  rfl

/-- A session after a registry has observed `i` objects, all of which have been dropped. -/
structure Churning (s : Session) (registry : RegistryName) (k threshold i : Nat) : Prop where
  sound : s.scene.Sound
  number : s.registryNumber? registry = some k
  churned : (s.world.registry k).Churned threshold i
  dead : ∀ o ∈ (s.world.registry k).tokens, s.world.heap.isLive o = false

/-- A new registry has observed no object. -/
theorem churning_start {before : List Action} (ran : (({} : Session).run alloc before).1 = s)
    (number : s.registryNumber? registry = some k) {options : Options}
    (fresh : s.world.registry k = .ofOptions options) :
    0 < options.sweepThreshold.toNat ∧
      s.Churning registry k options.sweepThreshold.toNat 0 := by
  have reachable := reachable_run alloc before
  have positive := reachable.accepted k
  have sound := reachable.sound
  rw [ran] at positive sound
  rw [scene, fresh] at positive
  refine ⟨positive, sound, number, ?_, ?_⟩
  · rw [fresh]
    exact Registry.churned_ofOptions options
  · rw [fresh]
    exact List.forall_mem_nil _

/-- The answers for the object of number `i`. -/
def churnAnswers (threshold i : Nat) : List Answer :=
  [.done, .id (.nth i), .count (i % threshold + 1), .done]

/-- One more object. -/
theorem Churning.succ {threshold i : Nat} (churning : s.Churning registry k threshold i)
    (accepted : 0 < threshold) (admits : s.Admits k step) (alloc : Allocator) :
    ∃ w, s.run alloc (step.actions registry) = ({ s with world := w }, churnAnswers threshold i) ∧
      ({ s with world := w } : Session).Churning registry k threshold (i + 1) ∧
      ∀ o, w.registryNumber? o = s.world.registryNumber? o := by
  obtain ⟨content, made⟩ := Option.isSome_iff_exists.mp admits.possible
  obtain ⟨held, other⟩ := held_of_content? made
  have sound : s.world.Sound s.strongHandles s.weakHandles := churning.sound
  have usable := open_of_registryNumber? (held_of_scene churning.sound) churning.number
  have bound := usable.lt_size sound.numbered
  have spares := admits.spares_content made
  have same := World.registryNumber?_churn (w := s.world) (k := k) alloc step.kind.layout other
  have after := World.registry_churn alloc step.kind.layout sound held other spares
  have dead := World.dead_churn alloc step.kind.layout sound held other spares bound churning.dead
  obtain ⟨⟨observed, id⟩, asked⟩ :
      ∃ result, (s.world.create alloc step.kind.layout content).1.observe k
        s.world.heap.nextObject = result := ⟨_, rfl⟩
  have ran := run_churnStep churning.number admits.free made asked
  obtain ⟨rfl, size, churned⟩ := World.observe_created alloc step.kind.layout sound held other
    accepted bound churning.churned churning.dead asked
  rw [size] at ran
  rw [asked] at after
  refine ⟨_, ran, ⟨?_, ?_, ?_, dead⟩, same⟩
  · have reached := (run_history churning.sound alloc (step.actions registry)).sound churning.sound
    rw [ran] at reached
    exact reached
  · exact (registryNumber?_of_world same s.handles registry).trans churning.number
  · rw [after]
    exact churned

/-- The names are as before, so that the next object can be created. -/
theorem Admits.of_world (admits : s.Admits k step) {w : World}
    (same : ∀ o, w.registryNumber? o = s.world.registryNumber? o) :
    ({ s with world := w } : Session).Admits k step where
  free := admits.free
  possible := admits.possible
  spares := by
    rw [funext (registryNumber?_of_world same s.handles)]
    exact admits.spares

theorem answers_append (s : Session) (alloc : Allocator) (first second : List Action) :
    (s.run alloc (first ++ second)).2 =
      (s.run alloc first).2 ++ ((s.run alloc first).1.run alloc second).2 := by
  induction first generalizing s with
  | nil => rfl
  | cons action rest ih => exact congrArg (List.cons _) (ih _)

/-- Many objects, one after another. -/
theorem Churning.run {threshold i : Nat} (churning : s.Churning registry k threshold i)
    (accepted : 0 < threshold) {steps : List ChurnStep} (admits : ∀ step ∈ steps, s.Admits k step)
    (alloc : Allocator) :
    (s.run alloc (steps.flatMap (ChurnStep.actions registry))).2 =
        (List.range' i steps.length).flatMap (churnAnswers threshold) ∧
      (s.run alloc (steps.flatMap (ChurnStep.actions registry))).1.Churning registry k threshold
        (i + steps.length) := by
  induction steps generalizing s i with
  | nil => exact ⟨rfl, churning⟩
  | cons step rest ih =>
    obtain ⟨w, ran, next, same⟩ := churning.succ accepted (admits step List.mem_cons_self) alloc
    obtain ⟨answers, final⟩ :=
      ih next fun u mem => (admits u (List.mem_cons_of_mem _ mem)).of_world same
    rw [List.flatMap_cons, answers_append, run_append, ran, List.length_cons, List.range'_succ,
      List.flatMap_cons, answers, Nat.add_comm rest.length, ← Nat.add_assoc]
    exact ⟨rfl, final⟩

theorem filterMap_id_churnAnswers (threshold n : Nat) :
    ((List.range n).flatMap (churnAnswers threshold)).filterMap Answer.id? =
      (List.range n).map ObjectId.nth := by
  rw [List.filterMap_flatMap, List.map_eq_flatMap]
  rfl

/-- The largest size among the answers. -/
theorem isGreatest_size {threshold n : Nat} (accepted : 0 < threshold) (positive : 0 < n) :
    IsGreatest {size | .count size ∈ (List.range n).flatMap (churnAnswers threshold)}
      (min n threshold) := by
  have told : ∀ size, .count size ∈ (List.range n).flatMap (churnAnswers threshold) ↔
      ∃ i < n, size = i % threshold + 1 := by
    simp [churnAnswers]
  constructor
  · refine (told _).mpr ⟨min n threshold - 1, by omega, ?_⟩
    rw [Nat.mod_eq_of_lt (by omega)]
    omega
  · intro size mem
    obtain ⟨i, small, rfl⟩ := (told size).mp mem
    have fits := Nat.mod_lt i accepted
    have fewer := Nat.mod_le i threshold
    omega

/-- Churn in closed form. If `n` objects are made, observed by a new registry and dropped, one after
another, then they get the first `n` ids, and the table never has more entries than the threshold,
nor than there were objects. It has been swept once for each whole table that came before the last
object, and each sweep has emptied it; what is left are dead entries. The destructors of the objects
must not purge the registry themselves. -/
theorem churn_exact (alloc : Allocator) (before : List Action)
    (ran : (({} : Session).run alloc before).1 = s) (number : s.registryNumber? registry = some k)
    {options : Options} (fresh : s.world.registry k = .ofOptions options) {threshold : Nat}
    (begun : options.sweepThreshold.toNat = threshold) {steps : List ChurnStep}
    (admits : ∀ step ∈ steps, s.Admits k step) {n : Nat} (count : steps.length = n)
    (positive : 1 ≤ n) {final : Session} {answers : List Answer}
    (churn : s.run alloc (steps.flatMap (ChurnStep.actions registry)) = (final, answers))
    {sweeps reclaimed : Nat} (swept : (n - 1) / threshold = sweeps)
    (lost : threshold * sweeps = reclaimed) :
    0 < threshold ∧
    answers = (List.range n).flatMap (churnAnswers threshold) ∧
    answers.filterMap Answer.id? = (List.range n).map ObjectId.nth ∧
    IsGreatest {size | .count size ∈ answers} (min n threshold) ∧
    1 ≤ n - reclaimed ∧ n - reclaimed ≤ threshold ∧
    final.world.stats k =
      { entries := n - reclaimed, live := 0, minted := .ofNat n, reclaimed := .ofNat reclaimed,
        sweeps := .ofNat sweeps } ∧
    (n < 2 ^ 64 →
      (final.world.stats k).toList = [n - reclaimed, 0, n, reclaimed, sweeps]) := by
  subst begun count swept lost
  obtain ⟨accepted, begun⟩ := churning_start ran number fresh
  obtain ⟨told, churning⟩ := begun.run accepted admits alloc
  rw [churn, Nat.zero_add] at churning
  rw [churn, ← List.range_eq_range'] at told
  dsimp only at churning told
  have stats : final.world.stats k = _ := churning.churned.stats_eq churning.dead
  have fewer := Nat.mul_div_le (steps.length - 1) options.sweepThreshold.toNat
  have fits := churning.churned.fits
  have total := churning.churned.total
  refine ⟨accepted, told, ?_, ?_, by omega, by omega, stats, fun small => ?_⟩
  · rw [told, filterMap_id_churnAnswers]
  · rw [told]
    exact isGreatest_size accepted positive
  · have rare := Nat.div_le_self (steps.length - 1) options.sweepThreshold.toNat
    rw [stats, Stats.toList, UInt64.toNat_ofNat_of_lt' small, UInt64.toNat_ofNat_of_lt',
      UInt64.toNat_ofNat_of_lt']
    · exact Nat.lt_of_le_of_lt (by omega) small
    · exact Nat.lt_of_le_of_lt (by omega) small

-- Seven objects whose destructors purge the registry are swept seven times with the threshold three,
-- and not twice as in the closed form, which is why `Admits.spares` excludes them.
example :
    ((({} : Session).run .recycling
      (.handle (.openRegistry "r" (some (.object [("sweep_threshold", .ofNat 3)]))) ::
        (Request.churn (.named "r") (.purger (.named "r")) 7).actions)).1.world.stats 1).toList =
      [0, 0, 7, 7, 7] := by
  decide +kernel

/-- The actions of a churn request, object by object. -/
theorem actions_churn (registry : RegistryName) (kind : Kind) (count : Nat) :
    (Request.churn registry kind count).actions =
      ((List.range count).map fun i => (⟨.aside, kind, "churn" ++ Nat.repr i⟩ : ChurnStep)).flatMap
        (ChurnStep.actions registry) := by
  rw [List.flatMap_map]
  rfl

/-- A session with a new registry that has the threshold three. -/
theorem exists_threefold :
    ∃ before s, (({} : Session).run .recycling before).1 = s ∧
      s.registryNumber? (.named "r") = some 1 ∧
      s.world.registry 1 = .ofOptions { sweepThreshold := 3 } ∧ s.handles.get? .aside = none :=
  ⟨[.handle (.openRegistry "r" (some (.object [("sweep_threshold", .ofNat 3)])))], _, rfl,
    by decide +kernel, by decide +kernel, by decide +kernel⟩

/-- Seven probes. The table is full when the fourth and the last of them are observed. -/
theorem churn_exact_seven :
    ∃ before s final answers, (({} : Session).run .recycling before).1 = s ∧
      s.registryNumber? (.named "r") = some 1 ∧
      s.world.registry 1 = .ofOptions { sweepThreshold := 3 } ∧
      s.run .recycling (Request.churn (.named "r") .probe 7).actions = (final, answers) ∧
      answers.filterMap Answer.id? = (List.range 7).map ObjectId.nth ∧
      IsGreatest {size | .count size ∈ answers} 3 ∧
      (final.world.stats 1).toList = [1, 0, 7, 6, 2] := by
  obtain ⟨before, s, ran, number, fresh, free⟩ := exists_threefold
  obtain ⟨⟨final, answers⟩, churn⟩ :
      ∃ result, s.run .recycling (Request.churn (.named "r") .probe 7).actions = result := ⟨_, rfl⟩
  refine ⟨before, s, final, answers, ran, number, fresh, churn, ?_⟩
  rw [actions_churn] at churn
  have admits : ∀ step ∈ (List.range 7).map fun i =>
      (⟨.aside, .probe, "churn" ++ Nat.repr i⟩ : ChurnStep), s.Admits 1 step := by
    intro step mem
    obtain ⟨i, -, rfl⟩ := List.mem_map.mp mem
    exact ⟨free, rfl, nofun⟩
  have length : ((List.range 7).map fun i =>
      (⟨.aside, .probe, "churn" ++ Nat.repr i⟩ : ChurnStep)).length = 7 := by
    rw [List.length_map, List.length_range]
  have begun : (3 : UInt64).toNat = 3 := rfl
  obtain ⟨-, -, ids, greatest, -, -, -, stats⟩ := churn_exact .recycling before ran number fresh
    begun admits length (by decide) churn rfl rfl
  exact ⟨ids, greatest, stats (by decide)⟩

end Session

end WeakIdentity
