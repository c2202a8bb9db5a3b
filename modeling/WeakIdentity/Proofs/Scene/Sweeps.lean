import WeakIdentity.Proofs.Scene.Tokens
import WeakIdentity.Proofs.Scene.Turns
import WeakIdentity.Proofs.World.Destruction

/-! When a registry sweeps. The event of a sweep is reported in just those steps in which the
registry is purged, by a call or by a destructor, and in those that insert an entry into a full
table. -/

namespace WeakIdentity

namespace World

variable {w v : World} {n : Nat}

/-! ### Events -/

theorem eventsOf_observe_known {o : Object}
    (known : w.idOf n o ≠ none) : (w.observe n o).1.eventsOf n = w.eventsOf n ++ [] := by
  obtain ⟨id, found⟩ := Option.ne_none_iff_exists'.mp known
  rw [observe_of_known found, eventsOf_apply, if_pos rfl]

theorem eventsOf_observe_unknown {o : Object}
    (unknown : w.idOf n o = none) :
    (w.observe n o).1.eventsOf n = w.eventsOf n ++
      (((w.registry n).makeRoom w.heap.isLive).events ++
        [.assign ⟨(w.registry n).minted⟩
          (((w.registry n).makeRoom w.heap.isLive).registry.size + 1)]) := by
  rw [observe_of_unknown unknown, eventsOf_apply, if_pos rfl]
  rfl

theorem eventsOf_purge (w : World) (k n : Nat) :
    (w.purge k).1.eventsOf n = w.eventsOf n ++
      if k = n then ((w.registry k).sweep w.heap.isLive).1.events else [] := by
  rw [purge_eq, eventsOf_apply]

theorem eventsOf_forget (w : World) (k n : Nat) (o : Object) :
    (w.forget k o).1.eventsOf n = w.eventsOf n ++
      if k = n then ((w.idOf k o).map Event.forget).toList else [] := by
  cases known : w.idOf k o with
  | none => rw [forget_of_unknown known, eventsOf_apply, Option.map_none, Option.toList_none]
  | some id =>
    obtain ⟨entry, -, -, forgotten⟩ := forget_of_known known
    rw [forgotten, eventsOf_apply, Option.map_some, Option.toList_some]

/-- A destructor lets a registry report something only if it purges it. -/
theorem eventsOf_finalize (w : World) (content : Content) (n : Nat) :
    (w.finalize content).eventsOf n = w.eventsOf n ∨
      ∃ name target, content = .purger name target ∧ w.refNumber? target = some n := by
  cases content with
  | plain => exact Or.inl rfl
  | probe name => exact Or.inl rfl
  | node name links => exact Or.inl rfl
  | keeper name target => exact Or.inl rfl
  | registry k =>
    refine Or.inl ((eventsOf_apply w k _ n).trans ?_)
    simp [Registry.close]
  | purger name target =>
    cases number : w.refNumber? target with
    | none =>
      rw [finalize, number]
      exact Or.inl rfl
    | some k =>
      by_cases same : k = n
      · exact Or.inr ⟨name, target, rfl, by rw [number, same]⟩
      · have silent := eventsOf_purge w k n
        rw [if_neg same, List.append_nil] at silent
        rw [finalize, number]
        exact Or.inl silent

theorem eventsOf_perform (w : World) (o : Object) (n : Nat) :
    (w.perform (.release o)).1.eventsOf n = w.eventsOf n ∨
      ∃ name target, w.heap.content? o = some (.purger name target) ∧
        w.heap.strongCount o = 1 ∧ w.refNumber? target = some n := by
  cases hb : w.heap.block? o with
  | none =>
    rw [perform, hb]
    exact Or.inl rfl
  | some block =>
    by_cases last : block.strong = 1
    · rw [perform_last hb last]
      refine (eventsOf_finalize _ block.content n).imp_right ?_
      rintro ⟨name, target, content, number⟩
      refine ⟨name, target, ?_, ?_, ?_⟩
      · rw [Heap.content?, hb, ← content]
        rfl
      · rw [Heap.strongCount, hb]
        exact last
      · rw [← number]
        exact (refNumber?_congr (Heap.content?_unretain w.heap o)).symm
    · rw [perform_more hb last]
      exact Or.inl rfl

/-- The destructor of a purger finds its object dead. -/
theorem perform_purger {o : Object} {name : String} {target : RegistryRef}
    (content : w.heap.content? o = some (.purger name target)) (last : w.heap.strongCount o = 1)
    (number : w.refNumber? target = some n) :
    (w.perform (.release o)).1 =
      (({ w with heap := w.heap.unretain o } : World).purge n).1.report
        (.purger name (({ w with heap := w.heap.unretain o } : World).purge n).2) := by
  obtain ⟨block, hb, kind⟩ := block_of_content content
  rw [Heap.strongCount, hb] at last
  have there : ({ w with heap := w.heap.unretain o } : World).refNumber? target = some n := by
    rw [← number]
    exact refNumber?_congr (Heap.content?_unretain w.heap o)
  rw [perform_last hb last, kind]
  simp only [finalize, there]

/-! ### Lifetimes -/

theorem isLive_ask (w : World) (query : Query) (o : Object) :
    (w.ask query).1.heap.isLive o = w.heap.isLive o := by
  obtain ⟨k, call, p⟩ := query
  cases call with
  | lookup => rfl
  | observe => exact isLive_apply w k _ o
  | forget => exact isLive_apply w k _ o

theorem isLive_link {node target : Object} (live : w.heap.isLive target = true)
    (h : w.link? node target = some v) (o : Object) : v.heap.isLive o = w.heap.isLive o := by
  unfold link? at h
  split at h
  · next name links content =>
    rw [← Option.some.inj h, ← Heap.isLive_retain live o, Bool.eq_iff_iff, Heap.isLive_iff,
      Heap.isLive_iff, Heap.strongCount_setContent]
  · cases h

end World

namespace Scene

open World

variable {s t : Scene} {path : List Transition} {n : Nat} {calls : List CallRecord}

namespace Transition

/-- A registry is purged in the step, by a call or by the destructor of an object. -/
def Purges (m : Transition) (n : Nat) : Prop :=
  m.calls = [] ∧ (m.after.world = (m.before.world.purge n).1 ∨
    ∃ o name target, m.Destroys o ∧ m.before.world.heap.content? o = some (.purger name target) ∧
      m.before.world.refNumber? target = some n)

/-- In the step a registry whose table is full gets a new entry. -/
def MakesRoom (m : Transition) (n : Nat) : Prop :=
  ∃ o answer, m.calls = [⟨⟨n, .observe, o⟩, answer⟩] ∧ m.before.world.idOf n o = none ∧
    (m.before.world.registry n).watermark.toNat ≤ (m.before.world.registry n).size

theorem sweeps_of_eq {m : Transition} {events : List Event}
    (h : m.after.world.eventsOf n = m.before.world.eventsOf n ++ events) :
    m.sweeps n = events.any Event.isSweep := by
  rw [sweeps, events_of_eq h]

/-- A sweep adds an event. -/
theorem ne_of_sweeps {m : Transition} (swept : m.sweeps n = true) :
    m.after.world.eventsOf n ≠ m.before.world.eventsOf n := by
  intro same
  rw [sweeps_of_eq (same.trans (List.append_nil _).symm)] at swept
  cases swept

end Transition

theorem Step.observes {o : Object} {answer : Option ObjectId}
    (step : Step s [⟨⟨n, .observe, o⟩, answer⟩] t) (sound : s.Sound) :
    s.world.Open n ∧ t.world = (s.world.observe n o).1 := by
  rcases step.quiet_or_ask sound with ⟨none, -⟩ | ⟨query, usable, -, asked, after⟩
  · cases none
  · obtain ⟨rfl, -⟩ := CallRecord.mk.inj (List.singleton_inj.mp asked)
    exact ⟨usable, after⟩

/-- A live object stays live in a step, unless the last strong handle to it is dropped. -/
theorem Step.lives (step : Step s calls t) (sound : s.Sound) {o : Object}
    (live : s.world.heap.isLive o = true) :
    t.world.heap.isLive o = true ∨
      s.world.heap.strongCount o = 1 ∧ t.world = (s.world.perform (.release o)).1 := by
  have held : ∀ {p}, p ∈ s.strong → s.world.heap.isLive p = true := sound.counted.live_of_mem
  cases step with
  | create alloc layout owned other =>
    exact Or.inl ((isLive_create (fun p mem => held (owned p mem)) o).mpr (Or.inl live))
  | openRegistry alloc valid fits =>
    rw [createRegistry_eq]
    exact Or.inl ((isLive_create (by simp [Content.owned]) o).mpr (Or.inl live))
  | clone mem => exact Or.inl ((Heap.isLive_retain (held mem) o).trans live)
  | downgrade mem => exact Or.inl (isLive_congr (Heap.strongCount_retainWeak _ _) o live)
  | cloneWeak mem => exact Or.inl (isLive_congr (Heap.strongCount_retainWeak _ _) o live)
  | upgrade mem alive => exact Or.inl ((Heap.isLive_retain alive o).trans live)
  | drop p =>
    cases alive : (World.perform _ (.release p)).1.heap.isLive o with
    | true => exact Or.inl rfl
    | false =>
      obtain ⟨same, last⟩ := (dies_perform live (.release p)).mp alive
      rw [Task.release.inj same]
      exact Or.inr ⟨last, rfl⟩
  | dropWeak p => exact Or.inl (isLive_congr (Heap.strongCount_releaseWeak _ _) o live)
  | link holder mem linked => exact Or.inl ((isLive_link (held mem) linked o).trans live)
  | unlink holder content =>
    exact Or.inl (isLive_congr (fun p => Heap.strongCount_setContent _ _ p _) o live)
  | purge usable => exact Or.inl ((isLive_apply _ _ _ o).trans live)
  | ask query usable mem => exact Or.inl ((isLive_ask _ query o).trans live)

/-- A purge, or an entry for which room has to be made, is a sweep. -/
theorem Step.sweeps_of (step : Step s calls t) (sound : s.Sound)
    (why : Transition.Purges ⟨s, calls, t⟩ n ∨ Transition.MakesRoom ⟨s, calls, t⟩ n) :
    Transition.sweeps ⟨s, calls, t⟩ n = true := by
  rcases why with ⟨-, purged | ⟨o, name, target, ⟨live, dead⟩, content, number⟩⟩ |
    ⟨o, answer, asked, unknown, full⟩
  · have reported := eventsOf_purge s.world n n
    rw [← purged, if_pos rfl] at reported
    rw [Transition.sweeps_of_eq reported]
    rfl
  · obtain ⟨last, after⟩ := (step.lives sound live).resolve_left (ne_true_of_eq_false dead)
    rw [perform_purger content last number] at after
    have reported := eventsOf_purge { s.world with heap := s.world.heap.unretain o } n n
    rw [if_pos rfl] at reported
    have told : t.world.eventsOf n = _ := (congrArg (World.eventsOf · n) after).trans reported
    rw [Transition.sweeps_of_eq told]
    rfl
  · have asked' : calls = [⟨⟨n, .observe, o⟩, answer⟩] := asked
    rw [asked'] at step
    have told := eventsOf_observe_unknown unknown
    rw [← (step.observes sound).2, Registry.makeRoom_of_le full] at told
    rw [Transition.sweeps_of_eq told]
    rfl

/-- The only call that sweeps is an observation for which room has to be made. -/
theorem makesRoom_of_sweeps {query : Query} (after : t.world = (s.world.ask query).1)
    (swept : Transition.sweeps ⟨s, [⟨query, (s.world.ask query).2⟩], t⟩ n = true) :
    Transition.MakesRoom ⟨s, [⟨query, (s.world.ask query).2⟩], t⟩ n := by
  obtain ⟨k, call, o⟩ := query
  have told : t.world.eventsOf n ≠ s.world.eventsOf n := Transition.ne_of_sweeps swept
  cases call with
  | lookup => exact absurd (congrArg (World.eventsOf · n) after) told
  | forget =>
    have reported : t.world.eventsOf n = _ :=
      (congrArg (World.eventsOf · n) after).trans (eventsOf_forget s.world k n o)
    rw [Transition.sweeps_of_eq reported] at swept
    split at swept
    · cases known : s.world.idOf k o <;> rw [known] at swept <;> cases swept
    · cases swept
  | observe =>
    have observed : t.world = (s.world.observe k o).1 := after
    by_cases same : k = n
    · subst same
      cases unknown : s.world.idOf k o with
      | some id =>
        have known : s.world.idOf k o ≠ none := by rw [unknown]; nofun
        refine absurd ?_ told
        rw [observed, eventsOf_observe_known known, List.append_nil]
      | none =>
        refine ⟨o, _, rfl, unknown, Nat.not_lt.mp fun room => ?_⟩
        have reported := eventsOf_observe_unknown unknown
        rw [← observed, Registry.makeRoom_of_lt room] at reported
        rw [Transition.sweeps_of_eq reported] at swept
        cases swept
    · refine absurd ?_ told
      rw [observed, observe_eq, eventsOf_apply, if_neg same, List.append_nil]

/-- There is no other reason for a sweep. -/
theorem Step.sweeps_only (step : Step s calls t) (sound : s.Sound)
    (swept : Transition.sweeps ⟨s, calls, t⟩ n = true) :
    Transition.Purges ⟨s, calls, t⟩ n ∨ Transition.MakesRoom ⟨s, calls, t⟩ n := by
  have told : t.world.eventsOf n ≠ s.world.eventsOf n := Transition.ne_of_sweeps swept
  cases step with
  | openRegistry alloc valid fits => exact absurd (by rw [createRegistry_eq]; rfl) told
  | drop o =>
    obtain ⟨name, target, content, last, number⟩ :=
      (eventsOf_perform _ o n).resolve_left told
    have live := sound.counted.live_of_mem (Multiset.mem_cons_self o _)
    exact Or.inl ⟨rfl, Or.inr ⟨o, name, target,
      ⟨live, (dies_perform live (.release o)).mpr ⟨rfl, last⟩⟩, content, number⟩⟩
  | link holder held linked =>
    unfold link? at linked
    split at linked
    · cases Option.some.inj linked
      exact absurd rfl told
    · cases linked
  | @purge w strong weak k usable =>
    by_cases same : k = n
    · subst same
      exact Or.inl ⟨rfl, Or.inl rfl⟩
    · exact absurd (by rw [eventsOf_purge, if_neg same, List.append_nil]) told
  | ask query usable held => exact Or.inr (makesRoom_of_sweeps rfl swept)
  | _ => exact absurd rfl told

theorem Path.sweeps_iff (h : Path s path t) (sound : s.Sound) {m : Transition} (mem : m ∈ path) :
    m.sweeps n = true ↔ m.Purges n ∨ m.MakesRoom n := by
  obtain ⟨before, after, rfl⟩ := List.append_of_mem mem
  obtain ⟨first, step, -⟩ := h.split
  have reached := first.sound sound
  exact ⟨step.sweeps_only reached, step.sweeps_of reached⟩

end Scene

end WeakIdentity
