import WeakIdentity.Proofs.Scene.Path

/-! What one step does to one registry: nothing, one call, one purge, its end or its beginning. All
that is proved of tables along a run starts from here. -/

namespace WeakIdentity

/-- What a registry may do in a step in which it gets `call`. `alive` says which objects are live
after the step, and `usable` whether the registry can be called then. -/
inductive Registry.Turn (alive : Object → Bool) (usable : Prop) (r : Registry) :
    Option Call → Change → Prop
  | lookup : Turn alive usable r (some .lookup) { registry := r }
  | observe (address : Nat) {object : Object} (live : alive object = true) :
      Turn alive usable r (some .observe) (r.observe alive address object).1
  /-- The forgotten object is held. -/
  | forget (address : Nat)
      (live : ∀ entry ∈ r.entries, entry.address = address → alive entry.token = true) :
      Turn alive usable r (some .forget) (r.forget address).1
  | purge : Turn alive usable r none (r.sweep alive).1
  | close (gone : ¬usable) : Turn alive usable r none r.close

/-- The call that a registry gets. -/
def callTo (n : Nat) (calls : List CallRecord) : Option Call :=
  (calls.find? fun record => record.query.registry = n).map fun record => record.query.call

theorem callTo_singleton (n : Nat) (record : CallRecord) :
    callTo n [record] = if record.query.registry = n then some record.query.call else none := by
  by_cases same : record.query.registry = n <;> simp [callTo, same]

namespace World

/-- What a step from `w` to `v` does to the registry of a number. -/
inductive Turns (w v : World) (n : Nat) : Option Call → Prop
  | rest (registry : v.registry n = w.registry n) (events : v.eventsOf n = w.eventsOf n) :
      Turns w v n none
  | opened {options : Options} (valid : options.validate = .ok ()) (new : n = w.registries.size)
      (size : v.registries.size = n + 1) (registry : v.registry n = .ofOptions options)
      (events : v.eventsOf n = w.eventsOf n) : Turns w v n none
  | turn {call : Option Call} {change : Change} (bound : n < w.registries.size)
      (turn : (w.registry n).Turn v.heap.isLive (v.Open n) call change)
      (registry : v.registry n = change.registry)
      (events : v.eventsOf n = w.eventsOf n ++ change.events) : Turns w v n call

variable {w v : World} {n : Nat}

theorem Turns.reports {call : Option Call} (turns : w.Turns v n call) :
    ∃ events, v.eventsOf n = w.eventsOf n ++ events := by
  cases turns with
  | rest registry events => exact ⟨[], by rw [events, List.append_nil]⟩
  | opened valid new size registry events => exact ⟨[], by rw [events, List.append_nil]⟩
  | turn bound turn registry events => exact ⟨_, events⟩

/-- What is reported of destructions has nothing to do with registries. -/
theorem Turns.report {call : Option Call} (turns : w.Turns v n call) (destruction : Destruction) :
    w.Turns (v.report destruction) n call := by
  cases turns with
  | rest registry events => exact .rest registry events
  | opened valid new size registry events => exact .opened valid new size registry events
  | turn bound turn registry events => exact .turn bound turn registry events

/-- A turn starts from what a world says about registries, not from its heap. -/
theorem Turns.reheap {call : Option Call} {heap : Heap}
    (turns : ({ w with heap } : World).Turns v n call) : w.Turns v n call := by
  cases turns with
  | rest registry events => exact .rest registry events
  | opened valid new size registry events => exact .opened valid new size registry events
  | turn bound turn registry events => exact .turn bound turn registry events

/-- Carrying out the change of one registry is a turn of it, and does not change the others. -/
theorem turns_apply {k : Nat} (bound : k < w.registries.size) {change : Change}
    {call : Option Call} (turn : (w.registry k).Turn w.heap.isLive (w.Open k) call change) :
    w.Turns (w.apply k change) n (if k = n then call else none) := by
  by_cases same : k = n
  · subst same
    have alive : (w.apply k change).heap.isLive = w.heap.isLive := funext (isLive_apply w k change)
    rw [if_pos rfl]
    refine .turn bound ?_ (by rw [registry_apply bound, if_pos rfl])
      (by rw [eventsOf_apply, if_pos rfl])
    rw [alive, open_apply]
    exact turn
  · rw [if_neg same]
    refine .rest ?_ (by rw [eventsOf_apply, if_neg same, List.append_nil])
    rw [registry_apply bound, if_neg (Ne.symm same)]

/-- What a registry does in a step without a call. -/
theorem turns_unasked {k : Nat} (bound : k < w.registries.size) {change : Change}
    (turn : (w.registry k).Turn w.heap.isLive (w.Open k) none change) :
    w.Turns (w.apply k change) n none := by
  have turned := turns_apply (n := n) bound turn
  rwa [ite_self] at turned

theorem turns_ask {strong weak : Multiset Object} (sound : w.Sound strong weak) {query : Query}
    (usable : w.Open query.registry) (held : query.object ∈ strong) :
    w.Turns (w.ask query).1 n (if query.registry = n then some query.call else none) := by
  have bound := usable.lt_size sound.numbered
  have live := sound.counted.live_of_mem held
  obtain ⟨k, call, o⟩ := query
  cases call with
  | lookup =>
    split
    · next same =>
      subst same
      exact .turn bound .lookup rfl (List.append_nil _).symm
    · exact .rest rfl rfl
  | observe => exact turns_apply bound (.observe (w.heap.address o) live)
  | forget =>
    refine turns_apply bound (.forget (w.heap.address o) fun entry mem same => ?_)
    rwa [sound.counted.token_of_address mem (sound.counted.reserved_of_live live) same]

theorem turns_finalize {strong weak : Multiset Object} (sound : w.Sound strong weak)
    {content : Content} (number : ∀ k, content = .registry k → k < w.registries.size ∧ ¬w.Open k) :
    w.Turns (w.finalize content) n none := by
  cases content with
  | plain => exact .rest rfl rfl
  | probe name => exact .rest rfl rfl
  | node name links => exact .rest rfl rfl
  | keeper name target => exact .rest rfl rfl
  | purger name target =>
    simp only [finalize]
    split
    · exact .rest rfl rfl
    · next k found =>
      have purged : w.Turns (w.purge k).1 n none :=
        turns_unasked (sound.numbered.refNumber_lt_size found) .purge
      exact purged.report _
  | registry k =>
    obtain ⟨bound, gone⟩ := number k rfl
    exact turns_unasked bound (.close gone)

theorem turns_perform {strong weak : Multiset Object} {o : Object}
    (sound : w.Sound (o ::ₘ strong) weak) : w.Turns (w.perform (.release o)).1 n none := by
  have live := sound.counted.live_of_mem (Multiset.mem_cons_self o strong)
  obtain ⟨block, hb, -⟩ := Heap.block_of_live live
  by_cases last : block.strong = 1
  · have turned := turns_finalize (n := n) (sound.unretain_last hb last)
      fun k content => sound.numbered.not_open_unretain hb last content
    rw [perform_last hb last]
    exact turned.reheap
  · rw [perform_more hb last]
    exact .rest rfl rfl

theorem turns_link {node target : Object} (h : w.link? node target = some v) :
    w.Turns v n none := by
  unfold link? at h
  split at h
  · rw [← Option.some.inj h]
    exact .rest rfl rfl
  · cases h

theorem turns_createRegistry (alloc : Allocator) {options : Options}
    (valid : options.validate = .ok ()) :
    w.Turns (w.createRegistry alloc (.ofOptions options)).1 n none := by
  rw [createRegistry_eq, create_eq]
  by_cases new : n = w.registries.size
  · exact .opened valid new (by simp [new]) (by rw [registry_push, if_pos new]) rfl
  · exact .rest (by rw [registry_push, if_neg new]) rfl

end World

namespace Scene

open World

variable {s t : Scene} {calls : List CallRecord}

theorem Step.turns (step : Step s calls t) (sound : s.Sound) (n : Nat) :
    s.world.Turns t.world n (callTo n calls) := by
  cases step with
  | openRegistry alloc valid fits => exact turns_createRegistry alloc valid
  | drop o => exact turns_perform sound
  | link holder held linked => exact turns_link linked
  | purge usable => exact turns_unasked (usable.lt_size sound.numbered) .purge
  | ask query usable held =>
    rw [callTo_singleton]
    exact turns_ask sound usable held
  | _ => exact .rest rfl rfl

variable {path : List Transition}

theorem Path.turns (h : Path s path t) (sound : s.Sound) {m : Transition} (mem : m ∈ path)
    (n : Nat) : m.before.world.Turns m.after.world n (callTo n m.calls) := by
  obtain ⟨before, after, rfl⟩ := List.append_of_mem mem
  obtain ⟨first, step, -⟩ := h.split
  exact step.turns (first.sound sound) n

theorem Path.eventsOf (h : Path s path t) (sound : s.Sound) {m : Transition} (mem : m ∈ path)
    (n : Nat) : m.after.world.eventsOf n = m.before.world.eventsOf n ++ m.events n := by
  obtain ⟨events, reported⟩ := (h.turns sound mem n).reports
  rw [Transition.events_of_eq reported, reported]

theorem Path.assigned (h : Path s path t) (sound : s.Sound) {m : Transition} (mem : m ∈ path)
    (n : Nat) : m.after.world.assigned n = m.before.world.assigned n ++ m.minted n := by
  rw [assigned_eq_events, assigned_eq_events, Transition.minted, h.eventsOf sound mem,
    List.filterMap_append]

/-- A registry that is not there yet has got no call and reported nothing. -/
theorem Path.unopened (h : Path s path t) (sound : s.Sound) {n : Nat}
    (beyond : t.world.registries.size ≤ n) {m : Transition} (mem : m ∈ path) :
    callTo n m.calls = none ∧ m.events n = [] := by
  have turns := h.turns sound mem n
  obtain ⟨before, after, rfl⟩ := List.append_of_mem mem
  obtain ⟨first, step, rest⟩ := h.split
  have reached := first.sound sound
  have grown := (step.later reached).registries
  have grown' := (rest.run.later (step.sound reached)).registries
  generalize callTo n m.calls = call at turns ⊢
  cases turns with
  | rest registry events => exact ⟨rfl, Transition.events_of_eq (by rw [events, List.append_nil])⟩
  | opened valid new size registry events => omega
  | turn bound turn registry events => omega

end Scene

end WeakIdentity
