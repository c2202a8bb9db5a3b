import Mathlib.Algebra.Order.Group.Multiset
import Mathlib.Tactic.Abel
import WeakIdentity.Proofs.Registry.Options
import WeakIdentity.Proofs.Scene.Basic
import WeakIdentity.Session.Basic

/-! A session as a scene: what its names hold are the references from outside, and each of its
actions is a run of steps. -/

namespace WeakIdentity

open Scene

namespace Bindings

variable {κ α : Type} [DecidableEq κ]

/-- The objects in the values. -/
def objects (b : Bindings κ α) (parts : α → List Object) : Multiset Object :=
  ↑(b.values.flatMap parts)

theorem perm_erase (b : Bindings κ α) (name : κ) :
    ((b.get? name).toList ++ (b.erase name).values).Perm b.values := by
  cases h : b.pairs.find? fun pair => pair.1 = name with
  | none =>
    have kept : (b.erase name).pairs = b.pairs := by
      refine List.filter_eq_self.mpr fun pair mem => ?_
      have other := List.find?_eq_none.mp h pair mem
      simpa using other
    rw [get?, h, values, values, kept]
    exact List.Perm.refl _
  | some pair =>
    have parts := perm_of_find?_key Prod.fst b.distinct (by simpa [beq_eq_decide] using h)
    simpa [get?, h, values, erase, bne, beq_eq_decide] using parts.map Prod.snd

/-- A name holds some of the objects, and the others are those without the name. -/
theorem objects_erase (b : Bindings κ α) (parts : α → List Object) (name : κ) :
    b.objects parts = ↑((b.get? name).elim [] parts) + (b.erase name).objects parts := by
  have split := (b.perm_erase name).flatMap_right parts
  rw [objects, objects, Multiset.coe_add, Multiset.coe_eq_coe]
  cases h : b.get? name with
  | none => simpa [h] using split.symm
  | some value => simpa [h] using split.symm

theorem objects_insert (b : Bindings κ α) (parts : α → List Object) (name : κ) (value : α) :
    ↑(parts value) + b.objects parts =
      ↑((b.get? name).elim [] parts) + (b.insert name value).objects parts := by
  have new : (b.insert name value).objects parts =
      ↑(parts value) + (b.erase name).objects parts := by
    simp [objects, insert, values]
  rw [new, b.objects_erase parts name]
  abel

theorem mem_objects {b : Bindings κ α} {parts : α → List Object} {name : κ} {value : α}
    (h : b.get? name = some value) {object : Object} (part : object ∈ parts value) :
    object ∈ b.objects parts := by
  obtain ⟨pair, found, rfl⟩ := Option.map_eq_some_iff.mp h
  refine Multiset.mem_coe.mpr (List.mem_flatMap.mpr ⟨pair.2, ?_, part⟩)
  exact List.mem_map_of_mem (List.mem_of_find?_eq_some found)

end Bindings

namespace Session

/-- The strong handles that the names of a session hold. -/
def strongHandles (s : Session) : Multiset Object :=
  s.handles.objects (fun handle => [handle.object]) +
    (s.registries.objects (fun object => [object]) + s.labelers.objects RegistryRef.owned)

/-- The weak handles that the names of a session hold. -/
def weakHandles (s : Session) : Multiset Object := s.weaks.objects Option.toList

/-- The world of a session, with what its names hold. -/
def scene (s : Session) : Scene := ⟨s.world, s.strongHandles, s.weakHandles⟩

section Names

variable {s : Session}

theorem handle_mem {slot : Slot} {handle : Handle} (h : s.handles.get? slot = some handle) :
    handle.object ∈ s.strongHandles :=
  Multiset.mem_add.mpr (Or.inl (Bindings.mem_objects h (List.mem_singleton_self _)))

theorem registry_mem {name : String} {object : Object}
    (h : s.registries.get? name = some object) : object ∈ s.strongHandles :=
  Multiset.mem_add.mpr (Or.inr (Multiset.mem_add.mpr
    (Or.inl (Bindings.mem_objects h (List.mem_singleton_self _)))))

theorem labeler_mem {name : String} {labeler : Labeler} {object : Object}
    (h : s.labelers.get? name = some labeler) (owned : object ∈ labeler.owned) :
    object ∈ s.strongHandles :=
  Multiset.mem_add.mpr (Or.inr (Multiset.mem_add.mpr (Or.inr (Bindings.mem_objects h owned))))

theorem weak_mem {name : String} {object : Object} (h : s.weaks.get? name = some (some object)) :
    object ∈ s.weakHandles :=
  Bindings.mem_objects h (by simp)

end Names

/-! ### Dropping and binding -/

theorem run_release (s : Session) {objects : List Object} {strong : Multiset Object}
    (h : strong = ↑objects + s.strongHandles) :
    Run ⟨s.world, strong, s.weakHandles⟩ [] (s.release objects).scene := by
  have run := run_settle s.world (objects.map Task.release) s.strongHandles s.weakHandles
  rw [releases_map, discards_map, Multiset.zero_add] at run
  rw [h]
  exact run

/-- A session that has got a handle and keeps it. -/
theorem run_bindHandle (s : Session) (world : World) (slot : Slot) (handle : Handle) :
    Run ⟨world, handle.object ::ₘ s.strongHandles, s.weakHandles⟩ []
      ({ s with world }.bindHandle slot handle).scene := by
  refine run_release { s with world, handles := s.handles.insert slot handle } ?_
  have moved := s.handles.objects_insert (fun handle => [handle.object]) slot handle
  have old : (s.handles.get? slot).toList.map Handle.object =
      (s.handles.get? slot).elim [] fun handle => [handle.object] := by
    cases s.handles.get? slot <;> rfl
  rw [Multiset.coe_singleton, Multiset.singleton_add] at moved
  rw [strongHandles, strongHandles, old, ← Multiset.cons_add, moved, Multiset.add_assoc]

theorem run_bindRegistry (s : Session) (world : World) (name : String) (object : Object) :
    Run ⟨world, object ::ₘ s.strongHandles, s.weakHandles⟩ []
      ({ s with world }.bindRegistry name object).scene := by
  refine run_release { s with world, registries := s.registries.insert name object } ?_
  have moved := s.registries.objects_insert (fun object => [object]) name object
  have old : (s.registries.get? name).toList =
      (s.registries.get? name).elim [] fun object => [object] := by
    cases s.registries.get? name <;> rfl
  rw [Multiset.coe_singleton, Multiset.singleton_add] at moved
  rw [strongHandles, strongHandles, old, ← Multiset.add_cons, ← Multiset.cons_add, moved]
  abel

theorem run_bindLabeler (s : Session) (world : World) (name : String) (labeler : Labeler) :
    Run ⟨world, ↑labeler.owned + s.strongHandles, s.weakHandles⟩ []
      ({ s with world }.bindLabeler name labeler).scene := by
  refine run_release { s with world, labelers := s.labelers.insert name labeler } ?_
  have moved := s.labelers.objects_insert RegistryRef.owned name labeler
  calc ↑labeler.owned + s.strongHandles
      = s.handles.objects (fun handle => [handle.object]) +
          (s.registries.objects (fun object => [object]) +
            (↑labeler.owned + s.labelers.objects RegistryRef.owned)) := by rw [strongHandles]; abel
    _ = _ := by rw [moved, strongHandles]; abel

theorem run_releaseWeak (s : Session) (weak : Option Object) :
    Run ⟨s.world, s.strongHandles, ↑weak.toList + s.weakHandles⟩ []
      (s.releaseWeak weak).scene := by
  cases weak with
  | none =>
    rw [Option.toList_none, Multiset.coe_nil, Multiset.zero_add]
    exact Run.refl _
  | some o =>
    rw [Option.toList_some, Multiset.coe_singleton, Multiset.singleton_add]
    exact (Step.dropWeak o).run

theorem run_bindWeak (s : Session) (world : World) (name : String) (weak : Option Object) :
    Run ⟨world, s.strongHandles, ↑weak.toList + s.weakHandles⟩ []
      ({ s with world }.bindWeak name weak).scene := by
  have run := run_releaseWeak { s with world, weaks := s.weaks.insert name weak }
    (s.weaks.get? name).join
  have moved := s.weaks.objects_insert Option.toList name weak
  have old : (s.weaks.get? name).join.toList = (s.weaks.get? name).elim [] Option.toList := by
    cases s.weaks.get? name <;> rfl
  rw [old] at run
  rw [weakHandles, moved]
  exact run

/-! ### What actions need -/

theorem mem_of_registryRef? {s : Session} {name : RegistryName} {ref : RegistryRef}
    (h : s.registryRef? name = some ref) {object : Object} (owned : object ∈ ref.owned) :
    object ∈ s.strongHandles := by
  cases name with
  | processWide =>
    obtain rfl := Option.some.inj h
    cases owned
  | named name =>
    obtain ⟨registry, found, rfl⟩ := Option.map_eq_some_iff.mp h
    rw [List.mem_singleton.mp owned]
    exact registry_mem found

theorem held_of_content? {s : Session} {name : String} {kind : Kind} {content : Content}
    (h : s.content? name kind = some content) :
    (∀ o ∈ content.owned, o ∈ s.strongHandles) ∧ ∀ n, content ≠ .registry n := by
  cases kind with
  | purger registry | keeper registry =>
    obtain ⟨ref, found, rfl⟩ := Option.map_eq_some_iff.mp h
    exact ⟨fun o mem => mem_of_registryRef? found mem, fun n => by simp⟩
  | _ =>
    obtain rfl := Option.some.inj h
    exact ⟨fun o mem => by simp [Content.owned] at mem, fun n => by simp⟩

/-- A registry that a session makes has valid options, and its table fits. -/
theorem configure_eq_ok {alloc : Allocator} {options : Option Json.Value} {registry : Registry}
    (h : configure alloc options = .ok registry) :
    ∃ chosen : Options, chosen.validate = .ok () ∧ alloc.fits chosen.initialCapacity = true ∧
      registry = .ofOptions chosen := by
  unfold configure at h
  split at h
  · exact ⟨{}, rfl, alloc.fits_zero, (Except.ok.inj h).symm⟩
  · split at h
    · cases h
    · next chosen _ =>
      split at h
      · cases h
      · cases h
      · next made accepted =>
        obtain rfl := Except.ok.inj h
        obtain ⟨threshold, fits, made⟩ := Registry.withOptions_eq_ok_iff.mp accepted
        exact ⟨chosen, Options.validate_eq_ok_iff.mpr threshold, fits, made⟩

/-! ### Actions on handles -/

section Actions

variable {s next : Session} {alloc : Allocator} {answer : Answer}

theorem run_create {slot : Slot} {kind : Kind} {name : String}
    (h : s.handle? alloc (.create slot kind name) = some (next, answer)) :
    Run s.scene [] next.scene := by
  obtain ⟨content, found, done⟩ := Option.bind_eq_some_iff.mp h
  obtain ⟨rfl, -⟩ := Prod.mk.inj (Option.some.inj done)
  obtain ⟨held, other⟩ := held_of_content? found
  exact (Step.create alloc kind.layout held other).run.thenQuiet
    (run_bindHandle s _ slot { object := (s.world.create alloc kind.layout content).2 })

/-- A further handle to an object that is held, of whatever type. -/
theorem run_retain (handle : Handle) (held : handle.object ∈ s.strongHandles) (slot : Slot) :
    Run s.scene []
      ({ s with world := s.world.retain handle.object }.bindHandle slot handle).scene :=
  (Step.clone held).run.thenQuiet (run_bindHandle s _ slot handle)

theorem run_clone {source target : Slot}
    (h : s.handle? alloc (.clone source target) = some (next, answer)) :
    Run s.scene [] next.scene := by
  obtain ⟨handle, found, done⟩ := Option.bind_eq_some_iff.mp h
  obtain ⟨rfl, -⟩ := Prod.mk.inj (Option.some.inj done)
  exact run_retain handle (handle_mem found) target

theorem run_coerce {source target : Slot} {view : View}
    (h : s.handle? alloc (.coerce source view target) = some (next, answer)) :
    Run s.scene [] next.scene := by
  obtain ⟨handle, found, done⟩ := Option.bind_eq_some_iff.mp h
  obtain ⟨rfl, -⟩ := Prod.mk.inj (Option.some.inj done)
  have held : handle.object ∈ s.strongHandles := handle_mem found
  exact run_retain { handle with view } held target

theorem run_shareRegistry {registry : String} {target : Slot}
    (h : s.handle? alloc (.shareRegistry registry target) = some (next, answer)) :
    Run s.scene [] next.scene := by
  obtain ⟨object, found, done⟩ := Option.bind_eq_some_iff.mp h
  obtain ⟨rfl, -⟩ := Prod.mk.inj (Option.some.inj done)
  exact run_retain { object } (registry_mem found) target

theorem run_drop {slot : Slot} (h : s.handle? alloc (.drop slot) = some (next, answer)) :
    Run s.scene [] next.scene := by
  obtain ⟨handle, found, done⟩ := Option.bind_eq_some_iff.mp h
  obtain ⟨rfl, -⟩ := Prod.mk.inj (Option.some.inj done)
  refine run_release { s with handles := s.handles.erase slot } ?_
  have split := s.handles.objects_erase (fun handle => [handle.object]) slot
  rw [found] at split
  rw [strongHandles, split, strongHandles, Option.elim_some, Multiset.add_assoc]

theorem run_link {node target : Slot}
    (h : s.handle? alloc (.link node target) = some (next, answer)) :
    Run s.scene [] next.scene := by
  obtain ⟨nodeHandle, foundNode, rest⟩ := Option.bind_eq_some_iff.mp h
  obtain ⟨targetHandle, foundTarget, rest⟩ := Option.bind_eq_some_iff.mp rest
  obtain ⟨world, linked, done⟩ := Option.bind_eq_some_iff.mp rest
  obtain ⟨rfl, -⟩ := Prod.mk.inj (Option.some.inj done)
  exact (Step.link (handle_mem foundNode) (handle_mem foundTarget) linked).run

theorem run_unlink {node : Slot} (h : s.handle? alloc (.unlink node) = some (next, answer)) :
    Run s.scene [] next.scene := by
  obtain ⟨handle, found, rest⟩ := Option.bind_eq_some_iff.mp h
  obtain ⟨⟨world, count⟩, unlinked, done⟩ := Option.bind_eq_some_iff.mp rest
  obtain ⟨rfl, -⟩ := Prod.mk.inj (Option.some.inj done)
  unfold World.unlink? at unlinked
  split at unlinked
  · next name links content =>
    obtain ⟨rfl, -⟩ := Prod.mk.inj (Option.some.inj unlinked)
    refine (Step.unlink (handle_mem found) content).run.thenQuiet ?_
    have run := run_settle { s.world with
      heap := s.world.heap.setContent handle.object (.node name []) } (links.map Task.release)
      s.strongHandles s.weakHandles
    rwa [releases_map, discards_map, Multiset.zero_add] at run
  · cases unlinked

theorem run_downgrade {source : Slot} {target : String}
    (h : s.handle? alloc (.downgrade source target) = some (next, answer)) :
    Run s.scene [] next.scene := by
  obtain ⟨handle, found, done⟩ := Option.bind_eq_some_iff.mp h
  obtain ⟨rfl, -⟩ := Prod.mk.inj (Option.some.inj done)
  exact (Step.downgrade (handle_mem found)).run.thenQuiet
    (run_bindWeak s _ target (some handle.object))

/-- A weak handle without an object. -/
theorem run_bindWeak_none (s : Session) (name : String) :
    Run s.scene [] (s.bindWeak name none).scene := by
  have run := run_bindWeak s s.world name none
  rwa [Option.toList_none, Multiset.coe_nil, Multiset.zero_add] at run

theorem run_weakClone {source target : String}
    (h : s.handle? alloc (.weakClone source target) = some (next, answer)) :
    Run s.scene [] next.scene := by
  obtain ⟨weak, found, done⟩ := Option.bind_eq_some_iff.mp h
  obtain ⟨rfl, -⟩ := Prod.mk.inj (Option.some.inj done)
  cases weak with
  | none => exact run_bindWeak_none s target
  | some o =>
    exact (Step.cloneWeak (weak_mem found)).run.thenQuiet (run_bindWeak s _ target (some o))

theorem run_weakDrop {name : String}
    (h : s.handle? alloc (.weakDrop name) = some (next, answer)) :
    Run s.scene [] next.scene := by
  obtain ⟨old, found, done⟩ := Option.bind_eq_some_iff.mp h
  obtain ⟨rfl, -⟩ := Prod.mk.inj (Option.some.inj done)
  have run := run_releaseWeak { s with weaks := s.weaks.erase name } old
  have split := s.weaks.objects_erase Option.toList name
  rw [found, Option.elim_some] at split
  rw [scene, weakHandles, split]
  exact run

theorem run_upgrade {name : String} {target : Slot}
    (h : s.handle? alloc (.upgrade name target) = some (next, answer)) :
    Run s.scene [] next.scene := by
  obtain ⟨weak, found, done⟩ := Option.bind_eq_some_iff.mp h
  split at done
  · obtain ⟨rfl, -⟩ := Prod.mk.inj (Option.some.inj done)
    exact Run.refl _
  · next world object upgraded =>
    obtain ⟨rfl, -⟩ := Prod.mk.inj (Option.some.inj done)
    obtain ⟨rfl, live, rfl⟩ := World.upgrade?_eq_some upgraded
    exact (Step.upgrade (weak_mem found) live).run.thenQuiet
      (run_bindHandle s _ target { object })

theorem run_openRegistry {name : String} {options : Option Json.Value}
    (h : s.handle? alloc (.openRegistry name options) = some (next, answer)) :
    Run s.scene [] next.scene := by
  simp only [handle?] at h
  split at h
  · obtain ⟨rfl, -⟩ := Prod.mk.inj (Option.some.inj h)
    exact Run.refl _
  · next registry accepted =>
    obtain ⟨rfl, -⟩ := Prod.mk.inj (Option.some.inj h)
    obtain ⟨chosen, valid, fits, rfl⟩ := configure_eq_ok accepted
    exact (Step.openRegistry alloc valid fits).run.thenQuiet (run_bindRegistry s _ name _)

theorem run_dropRegistry {name : String}
    (h : s.handle? alloc (.dropRegistry name) = some (next, answer)) :
    Run s.scene [] next.scene := by
  obtain ⟨object, found, done⟩ := Option.bind_eq_some_iff.mp h
  obtain ⟨rfl, -⟩ := Prod.mk.inj (Option.some.inj done)
  refine run_release { s with registries := s.registries.erase name } ?_
  have split := s.registries.objects_erase (fun object => [object]) name
  rw [found, Option.elim_some] at split
  rw [strongHandles, split, strongHandles]
  abel

/-- A labeler for a registry that is held. -/
theorem run_retainLabeler {labeler : Labeler} (held : ∀ o ∈ labeler.owned, o ∈ s.strongHandles)
    (name : String) :
    Run s.scene []
      ({ s with world := labeler.owned.foldl World.retain s.world }.bindLabeler name
        labeler).scene := by
  have run := run_bindLabeler s (labeler.owned.foldl World.retain s.world) name labeler
  cases labeler with
  | processWide => rwa [RegistryRef.owned, Multiset.coe_nil, Multiset.zero_add] at run
  | shared object => exact (Step.clone (held object List.mem_cons_self)).run.thenQuiet run

theorem run_openLabeler {name : String} {registry : RegistryName}
    (h : s.handle? alloc (.openLabeler name registry) = some (next, answer)) :
    Run s.scene [] next.scene := by
  obtain ⟨labeler, found, done⟩ := Option.bind_eq_some_iff.mp h
  obtain ⟨rfl, -⟩ := Prod.mk.inj (Option.some.inj done)
  exact run_retainLabeler (fun o owned => mem_of_registryRef? found owned) name

theorem run_cloneLabeler {source target : String}
    (h : s.handle? alloc (.cloneLabeler source target) = some (next, answer)) :
    Run s.scene [] next.scene := by
  obtain ⟨labeler, found, done⟩ := Option.bind_eq_some_iff.mp h
  obtain ⟨rfl, -⟩ := Prod.mk.inj (Option.some.inj done)
  exact run_retainLabeler (fun o owned => labeler_mem found owned) target

theorem run_dropLabeler {name : String}
    (h : s.handle? alloc (.dropLabeler name) = some (next, answer)) :
    Run s.scene [] next.scene := by
  obtain ⟨labeler, found, done⟩ := Option.bind_eq_some_iff.mp h
  obtain ⟨rfl, -⟩ := Prod.mk.inj (Option.some.inj done)
  refine run_release { s with labelers := s.labelers.erase name } ?_
  have split := s.labelers.objects_erase RegistryRef.owned name
  rw [found, Option.elim_some] at split
  rw [strongHandles, split, strongHandles]
  abel

/-- An action on handles is a run in which no registry is called. -/
theorem run_handle? {action : HandleAction}
    (h : s.handle? alloc action = some (next, answer)) : Run s.scene [] next.scene := by
  cases action with
  | create => exact run_create h
  | clone => exact run_clone h
  | coerce => exact run_coerce h
  | shareRegistry => exact run_shareRegistry h
  | drop => exact run_drop h
  | link => exact run_link h
  | unlink => exact run_unlink h
  | counts slot =>
    obtain ⟨handle, -, done⟩ := Option.bind_eq_some_iff.mp h
    obtain ⟨rfl, -⟩ := Prod.mk.inj (Option.some.inj done)
    exact Run.refl _
  | downgrade => exact run_downgrade h
  | weakNew target =>
    obtain ⟨rfl, -⟩ := Prod.mk.inj (Option.some.inj h)
    exact run_bindWeak_none s target
  | weakClone => exact run_weakClone h
  | weakDrop => exact run_weakDrop h
  | upgrade => exact run_upgrade h
  | openRegistry => exact run_openRegistry h
  | dropRegistry => exact run_dropRegistry h
  | openLabeler => exact run_openLabeler h
  | cloneLabeler => exact run_cloneLabeler h
  | dropLabeler => exact run_dropLabeler h

end Actions

end Session

end WeakIdentity
