import Mathlib.Data.Set.Card
import WeakIdentity.Proofs.Ledger.Law
import WeakIdentity.Proofs.Scene.Sweeps

/-! The contents of a table are determined by the history: the objects that were observed and not
forgotten since, less those that were destroyed before a later sweep. -/

namespace WeakIdentity

/-- An object was observed, and not forgotten since. -/
def Registered (calls : List CallRecord) (n : Nat) (o : Object) : Prop :=
  ∃ before d after, calls = before ++ d :: after ∧ d.query = ⟨n, .observe, o⟩ ∧
    ∀ later ∈ after, ¬later.Forgets n o

theorem not_registered_nil (n : Nat) (o : Object) : ¬Registered [] n o := by
  rintro ⟨before, d, after, split, -⟩
  simp at split

theorem registered_concat {calls : List CallRecord} {d : CallRecord} {n : Nat} {o : Object} :
    Registered (calls ++ [d]) n o ↔
      d.query = ⟨n, .observe, o⟩ ∨ Registered calls n o ∧ ¬d.Forgets n o := by
  constructor
  · rintro ⟨before, first, after, split, observed, kept⟩
    induction after using List.reverseRecOn with
    | nil =>
      obtain ⟨rfl, same⟩ := List.append_inj' split rfl
      rw [List.singleton_inj.mp same]
      exact Or.inl observed
    | append_singleton after last =>
      rw [← List.cons_append, ← List.append_assoc] at split
      obtain ⟨rfl, same⟩ := List.append_inj' split rfl
      rw [List.singleton_inj.mp same]
      exact Or.inr ⟨⟨before, first, after, rfl, observed,
        fun later mem => kept later (List.mem_append_left _ mem)⟩, kept last (by simp)⟩
  · rintro (observed | ⟨⟨before, first, after, rfl, observed, kept⟩, unforgotten⟩)
    · exact ⟨calls, d, [], rfl, observed, nofun⟩
    · refine ⟨before, first, after ++ [d], by simp, observed, fun later mem => ?_⟩
      rcases List.mem_append.mp mem with old | new
      · exact kept later old
      · rw [List.mem_singleton.mp new]
        exact unforgotten

namespace Ledger

variable {ledger : Ledger} {n : Nat} {o : Object}

/-- The objects with an id after a call: the observed one, and those of before that are not
forgotten. -/
theorem known_ask {d : CallRecord} (follows : d.answer = (ledger.ask d.query).2) :
    (ledger.ask d.query).1.id? n o ≠ none ↔
      d.query = ⟨n, .observe, o⟩ ∨ ledger.id? n o ≠ none ∧ ¬d.Forgets n o := by
  obtain ⟨⟨k, call, p⟩, answer⟩ := d
  simp only [CallRecord.Forgets, Query.mk.injEq] at follows ⊢
  rcases ledger.ask_cases ⟨k, call, p⟩ with ⟨same, observed, missed⟩ | ⟨rfl, unknown, given⟩ |
    ⟨rfl, id, known, forgot⟩
  · rw [same]
    constructor
    · intro known
      refine Or.inr ⟨known, ?_⟩
      rintro ⟨⟨rfl, rfl, rfl⟩, -⟩
      exact known (missed rfl)
    · rintro (⟨rfl, rfl, rfl⟩ | ⟨known, -⟩)
      · exact observed rfl
      · exact known
  · rw [given]
    by_cases this : n = k ∧ o = p
    · obtain ⟨rfl, rfl⟩ := this
      simp [assign]
    · have other : ¬(k = n ∧ p = o) := fun both => this ⟨both.1.symm, both.2.symm⟩
      simp [assign, this, other]
  · rw [forgot] at follows ⊢
    by_cases this : n = k ∧ o = p
    · obtain ⟨rfl, rfl⟩ := this
      simp [forget, follows]
    · have other : ¬(k = n ∧ p = o) := fun both => this ⟨both.1.symm, both.2.symm⟩
      simp [forget, this, other]

/-- The objects with an id in the ledger are the registered ones. -/
theorem known_iff {calls : List CallRecord} (explains : Explains {} calls) :
    (after {} (calls.map CallRecord.query)).id? n o ≠ none ↔ Registered calls n o := by
  induction calls using List.reverseRecOn with
  | nil => exact iff_of_false (fun known => known rfl) (not_registered_nil n o)
  | append_singleton calls d ih =>
    obtain ⟨explained, told⟩ := explains_append.mp explains
    rw [List.map_append, after_append, registered_concat, ← ih explained]
    exact known_ask (explains_cons.mp told).1

end Ledger

namespace Registry

/-- Entries counted by their objects. -/
theorem length_filter_eq_ncard {r : Registry} (distinct : r.tokens.Nodup) (f : Object → Bool)
    {p : Object → Prop} (h : ∀ o, p o ↔ o ∈ r.tokens ∧ f o = true) :
    (r.entries.filter fun entry => f entry.token).length = {o | p o}.ncard := by
  have named : {o | p o} = ↑(r.tokens.filter f).toFinset := by
    ext o
    simp [h]
  rw [named, Set.ncard_coe_finset, List.toFinset_card_of_nodup (distinct.filter f), tokens,
    List.filter_map, List.length_map]
  rfl

/-- A sweep counts the entries of the dead. -/
theorem count_sweep (alive : Object → Bool) (r : Registry) :
    (r.sweep alive).2 = (r.entries.filter fun entry => !alive entry.token).length := by
  have parts := List.length_eq_length_filter_add (l := r.entries) fun entry => alive entry.token
  simp only [sweep, size]
  omega

theorem mem_tokens_sweep {alive : Object → Bool} {r : Registry} {o : Object} :
    o ∈ (r.sweep alive).1.registry.tokens ↔ o ∈ r.tokens ∧ alive o = true := by
  simp only [tokens, List.mem_map, mem_sweep]
  constructor
  · rintro ⟨entry, ⟨mem, live⟩, rfl⟩
    exact ⟨⟨entry, mem, rfl⟩, live⟩
  · rintro ⟨⟨entry, mem, rfl⟩, live⟩
    exact ⟨entry, ⟨mem, live⟩, rfl⟩

section Dead

variable {alive : Object → Bool} {r : Registry} {o : Object} (dead : alive o = false)
include dead

theorem not_mem_tokens_sweep : o ∉ (r.sweep alive).1.registry.tokens := by
  intro mem
  rw [mem_tokens_sweep, dead] at mem
  exact Bool.false_ne_true mem.2

theorem mem_tokens_observe_dead (address : Nat) {object : Object} (live : alive object = true) :
    o ∈ (r.observe alive address object).1.registry.tokens ↔
      o ∈ r.tokens ∧ (r.observe alive address object).1.events.any Event.isSweep = false := by
  cases found : r.find? address with
  | some entry => simp [observe_of_found found]
  | none =>
    have other : o ≠ object := by
      rintro rfl
      rw [dead] at live
      cases live
    have old : o ∈ object :: (r.makeRoom alive).registry.tokens ↔
        o ∈ (r.makeRoom alive).registry.tokens := List.mem_cons.trans (or_iff_right other)
    rw [observe_of_unknown found]
    refine old.trans ?_
    by_cases full : r.watermark.toNat ≤ r.size
    · rw [makeRoom_of_le full]
      exact iff_of_false (not_mem_tokens_sweep dead) fun both => Bool.noConfusion both.2
    · rw [makeRoom_of_lt (Nat.not_le.mp full)]
      exact (and_iff_left rfl).symm

/-- To forget a live object keeps the entries of dead ones. -/
theorem mem_tokens_forget_dead {address : Nat}
    (live : ∀ entry ∈ r.entries, entry.address = address → alive entry.token = true) :
    o ∈ (r.forget address).1.registry.tokens ↔ o ∈ r.tokens := by
  cases found : r.find? address with
  | none => rw [forget_of_unknown found]
  | some entry =>
    rw [forget_of_found found]
    simp only [tokens, List.mem_map, List.mem_filter, bne_iff_ne]
    constructor
    · rintro ⟨other, ⟨mem, -⟩, rfl⟩
      exact ⟨other, mem, rfl⟩
    · rintro ⟨other, mem, rfl⟩
      refine ⟨other, ⟨mem, fun same => ?_⟩, rfl⟩
      rw [live other mem same] at dead
      cases dead

/-- What a turn does to the entry of a dead object: it stays just if there is no sweep. -/
theorem Turn.mem_tokens_dead {usable : Prop} {call : Option Call} {change : Change}
    (turn : r.Turn alive usable call change) (there : usable) :
    o ∈ change.registry.tokens ↔ o ∈ r.tokens ∧ change.events.any Event.isSweep = false := by
  cases turn with
  | lookup => exact (and_iff_left rfl).symm
  | observe address live => exact mem_tokens_observe_dead dead address live
  | forget address live =>
    have silent : (r.forget address).1.events.any Event.isSweep = false := by
      unfold Registry.forget
      split <;> rfl
    rw [mem_tokens_forget_dead dead live, silent]
    exact (and_iff_left rfl).symm
  | purge => exact iff_of_false (not_mem_tokens_sweep dead) fun both => Bool.noConfusion both.2
  | close gone => exact absurd there gone

end Dead

end Registry

namespace World

variable {w v : World} {n : Nat} {call : Option Call}

theorem tokens_of_size_le (beyond : w.registries.size ≤ n) : (w.registry n).tokens = [] := by
  rw [registry_of_size_le beyond]
  rfl

/-- The entry of a dead object stays until there is a sweep. -/
theorem Turns.mem_tokens_dead (turns : w.Turns v n call)
    (usable : v.Open n ∨ v.registries.size ≤ n) (grown : w.registries.size ≤ v.registries.size)
    {o : Object} (dead : v.heap.isLive o = false) {events : List Event}
    (reported : v.eventsOf n = w.eventsOf n ++ events) :
    o ∈ (v.registry n).tokens ↔ o ∈ (w.registry n).tokens ∧ events.any Event.isSweep = false := by
  cases turns with
  | rest registry same =>
    obtain rfl : [] = events := by simpa [same] using reported
    rw [registry]
    exact (and_iff_left rfl).symm
  | opened valid new size registry same =>
    rw [registry, tokens_of_size_le (Nat.le_of_eq new.symm)]
    exact iff_of_false List.not_mem_nil fun both => List.not_mem_nil both.1
  | turn bound turn registry same =>
    have there : v.Open n := usable.resolve_right (by omega)
    obtain rfl := List.append_cancel_left (same.symm.trans reported)
    rw [registry]
    exact turn.mem_tokens_dead dead there

variable {strong weak : Multiset Object}

/-- A purge keeps the ids of live objects. -/
theorem idOf_purge (sound : w.Sound strong weak) (bound : n < w.registries.size) (k : Nat)
    {o : Object} (live : w.heap.isLive o = true) : (w.purge n).1.idOf k o = w.idOf k o := by
  have after := sound.purge bound
  rw [purge_eq] at after ⊢
  by_cases same : k = n
  · subst same
    refine idOf_apply sound after bound live fun entry token => ?_
    rw [Registry.mem_sweep, token]
    exact and_iff_left live
  · exact idOf_apply_of_ne bound same _ o

theorem registry_purge (bound : n < w.registries.size) :
    (w.purge n).1.registry n = ((w.registry n).sweep w.heap.isLive).1.registry := by
  rw [purge_eq, registry_apply bound, if_pos rfl]

theorem registry_report (destruction : Destruction) :
    (w.report destruction).registry n = w.registry n := rfl

theorem stats_purge (bound : n < w.registries.size) :
    ((w.purge n).1.stats n).entries = ((w.purge n).1.stats n).live := by
  have alive : (w.purge n).1.heap.isLive = w.heap.isLive := funext (isLive_apply w n _)
  rw [stats, registry_purge bound, alive, Registry.live_sweep]
  rfl

theorem isLive_unretain_last {o : Object} (last : w.heap.strongCount o = 1) (p : Object) :
    (w.heap.unretain o).isLive p = false ↔ w.heap.isLive p = false ∨ p = o := by
  rw [← Bool.not_eq_true, ← Bool.not_eq_true, Heap.isLive_iff, Heap.isLive_iff,
    Heap.strongCount_unretain]
  split
  · next same =>
    subst same
    exact iff_of_true (by omega) (Or.inr rfl)
  · next other => rw [or_iff_left other, Nat.sub_zero]

end World

namespace Scene

open World

variable {s t : Scene} {path : List Transition} {n : Nat} {o : Object}

/-- A sweep has come after an object was destroyed. -/
def SweptSince (path : List Transition) (n : Nat) (o : Object) : Prop :=
  ∃ before m after, path = before ++ m :: after ∧ m.Destroys o ∧ ∃ k ∈ m :: after, k.sweeps n = true

/-- An object was observed and not forgotten since, nor destroyed and swept. -/
def Enlisted (path : List Transition) (n : Nat) (o : Object) : Prop :=
  Registered (history path) n o ∧ ¬SweptSince path n o

/-- An object was destroyed while it had an entry, and since then there was no sweep. -/
def Reclaimable (path : List Transition) (n : Nat) (o : Object) : Prop :=
  ∃ before m after, path = before ++ m :: after ∧ m.Destroys o ∧
    o ∈ (m.before.world.registry n).tokens ∧ ∀ k ∈ m :: after, k.sweeps n = false

theorem sweptSince_concat {m : Transition} :
    SweptSince (path ++ [m]) n o ↔
      SweptSince path n o ∨ m.sweeps n = true ∧ ∃ k ∈ path ++ [m], k.Destroys o := by
  constructor
  · rintro ⟨before, k, after, split, destroyed, j, mem, swept⟩
    have there : k ∈ path ++ [m] := by simp [split]
    induction after using List.reverseRecOn with
    | nil =>
      obtain ⟨-, same⟩ := List.append_inj' split rfl
      rw [List.mem_singleton.mp mem, ← List.singleton_inj.mp same] at swept
      exact Or.inr ⟨swept, k, there, destroyed⟩
    | append_singleton after last =>
      rw [← List.cons_append] at mem split
      rw [← List.append_assoc] at split
      obtain ⟨rfl, same⟩ := List.append_inj' split rfl
      rcases List.mem_append.mp mem with old | new
      · exact Or.inl ⟨before, k, after, rfl, destroyed, j, old, swept⟩
      · rw [List.mem_singleton.mp new, ← List.singleton_inj.mp same] at swept
        exact Or.inr ⟨swept, k, there, destroyed⟩
  · rintro (⟨before, k, after, rfl, destroyed, j, mem, swept⟩ | ⟨swept, k, mem, destroyed⟩)
    · exact ⟨before, k, after ++ [m], by simp, destroyed, j, List.mem_append_left [m] mem, swept⟩
    · rcases List.mem_append.mp mem with old | new
      · obtain ⟨before, after, rfl⟩ := List.append_of_mem old
        exact ⟨before, k, after ++ [m], by simp, destroyed, m, by simp, swept⟩
      · rw [List.mem_singleton.mp new] at destroyed
        exact ⟨path, m, [], rfl, destroyed, m, List.mem_cons_self, swept⟩

/-- The object of a call is live after the step. -/
theorem Step.asked_live {calls : List CallRecord} (step : Step s calls t) (sound : s.Sound)
    {d : CallRecord} (mem : d ∈ calls) : t.world.heap.isLive d.query.object = true := by
  cases step with
  | ask query usable held =>
    rw [List.mem_singleton.mp mem]
    exact (sound_ask sound usable held).counted.live_of_mem held
  | _ => cases mem

/-- The object of a call on a path that is dead at its end was destroyed on it. -/
theorem Path.destroys_of_asked (h : Path s path t) (sound : s.Sound) {d : CallRecord}
    (mem : d ∈ history path) (dead : t.world.heap.isLive d.query.object = false) :
    ∃ m ∈ path, m.Destroys d.query.object := by
  induction path using List.reverseRecOn generalizing t with
  | nil => cases mem
  | append_singleton path m ih =>
    obtain ⟨first, step, rfl⟩ := h.last
    rw [history_append, history_singleton] at mem
    rcases List.mem_append.mp mem with old | new
    · cases alive : m.before.world.heap.isLive d.query.object with
      | true => exact ⟨m, by simp, alive, dead⟩
      | false =>
        obtain ⟨k, there, destroyed⟩ := ih first old alive
        exact ⟨k, List.mem_append_left _ there, destroyed⟩
    · rw [step.asked_live (first.sound sound) new] at dead
      cases dead

theorem Path.destroys_of_registered (h : Path s path t) (sound : s.Sound)
    (registered : Registered (history path) n o) (dead : t.world.heap.isLive o = false) :
    ∃ m ∈ path, m.Destroys o := by
  obtain ⟨before, d, after, split, query, -⟩ := registered
  have object : d.query.object = o := by rw [query]
  rw [← object] at dead ⊢
  exact h.destroys_of_asked sound (by simp [split]) dead

/-- The calls of a step change nothing about an object that is dead after it. -/
theorem Path.registered_last {m : Transition} (h : Path s (path ++ [m]) t) (sound : s.Sound)
    (dead : t.world.heap.isLive o = false) :
    Registered (history (path ++ [m])) n o ↔ Registered (history path) n o := by
  obtain ⟨first, step, rfl⟩ := h.last
  have reached := first.sound sound
  have asked := fun d => step.asked_live (d := d) reached
  rw [history_append, history_singleton]
  rcases step.quiet_or_ask reached with ⟨none, -⟩ | ⟨query, -, -, one, -⟩
  · rw [none, List.append_nil]
  · rw [one] at asked ⊢
    have other : query.object ≠ o := by
      rintro rfl
      rw [asked _ List.mem_cons_self] at dead
      cases dead
    rw [registered_concat]
    constructor
    · rintro (rfl | ⟨registered, -⟩)
      · exact absurd rfl other
      · exact registered
    · intro registered
      refine Or.inr ⟨registered, ?_⟩
      rintro ⟨rfl, -⟩
      exact other rfl

/-- An object that is live or not yet allocated has an entry just if it is registered. -/
theorem Path.mem_tokens_present (h : Path {} path s)
    (usable : s.world.Open n ∨ s.world.registries.size ≤ n)
    (there : s.world.heap.isLive o = true ∨ s.world.heap.place? o = none) :
    o ∈ (s.world.registry n).tokens ↔ Enlisted path n o := by
  obtain ⟨explained, agrees⟩ := Reachable.agrees h.run
  have unswept : ¬SweptSince path n o := by
    rintro ⟨before, m, after, rfl, destroyed, -⟩
    exact h.not_destroys sound_start there (by simp) destroyed
  have unknown := agrees.unknown_iff (h.sound sound_start) usable there
  rw [Enlisted, ← Ledger.known_iff explained, Ne, unknown, not_not]
  exact (and_iff_left unswept).symm

/-- In the last step, an object that is dead after it keeps its entry unless there is a sweep. -/
theorem Path.mem_tokens_last {m : Transition} (h : Path {} (path ++ [m]) s)
    (usable : s.world.Open n ∨ s.world.registries.size ≤ n)
    (dead : s.world.heap.isLive o = false) :
    o ∈ (s.world.registry n).tokens ↔
      o ∈ (m.before.world.registry n).tokens ∧ m.sweeps n = false := by
  have mem : m ∈ path ++ [m] := by simp
  have turns := h.turns sound_start mem n
  have reported := h.eventsOf sound_start mem n
  obtain ⟨first, step, rfl⟩ := h.last
  have grown := (step.later (first.sound sound_start)).registries
  exact turns.mem_tokens_dead usable grown dead reported

/-- A registry that can be called could be called before, or was not there yet. -/
theorem Path.usable_before {m : Transition} (h : Path {} (path ++ [m]) s)
    (usable : s.world.Open n ∨ s.world.registries.size ≤ n) :
    m.before.world.Open n ∨ m.before.world.registries.size ≤ n := by
  obtain ⟨first, step, rfl⟩ := h.last
  have later := step.later (first.sound sound_start)
  rcases usable with usable | beyond
  · exact later.usable n usable
  · exact Or.inr (Nat.le_trans later.registries beyond)

/-- Whether an object has an entry is determined by the history. -/
theorem Path.mem_tokens_iff (h : Path {} path s)
    (usable : s.world.Open n ∨ s.world.registries.size ≤ n) :
    o ∈ (s.world.registry n).tokens ↔ Enlisted path n o := by
  induction path using List.reverseRecOn generalizing s with
  | nil =>
    cases h.eq_of_nil
    exact h.mem_tokens_present usable (Or.inr rfl)
  | append_singleton path m ih =>
    cases live : s.world.heap.isLive o with
    | true => exact h.mem_tokens_present usable (Or.inl live)
    | false =>
      have registered := h.registered_last (n := n) sound_start live
      rw [h.mem_tokens_last usable live, ih h.last.1 (h.usable_before usable), Enlisted, Enlisted,
        sweptSince_concat, ← registered, ← Bool.not_eq_true, and_assoc, not_or]
      refine and_congr_right fun observed => and_congr_right fun _ => ?_
      rw [and_iff_left (h.destroys_of_registered sound_start observed live)]

theorem Path.dead_of_destroys (h : Path s path t) (sound : s.Sound) {m : Transition}
    (mem : m ∈ path) (destroyed : m.Destroys o) : t.world.heap.isLive o = false := by
  rw [← Bool.not_eq_true]
  intro live
  exact h.not_destroys sound (Or.inl live) mem destroyed

/-- A destroyed object has an entry just if it had one and there was no sweep since. -/
theorem Path.mem_tokens_since {before after : List Transition} {m : Transition}
    (h : Path {} (before ++ m :: after) s) (usable : s.world.Open n ∨ s.world.registries.size ≤ n)
    (destroyed : m.Destroys o) :
    o ∈ (s.world.registry n).tokens ↔
      o ∈ (m.before.world.registry n).tokens ∧ ∀ k ∈ m :: after, k.sweeps n = false := by
  have dead := h.dead_of_destroys sound_start (by simp) destroyed
  induction after using List.reverseRecOn generalizing s with
  | nil => rw [h.mem_tokens_last usable dead, List.forall_mem_singleton]
  | append_singleton after last ih =>
    rw [← List.cons_append, ← List.append_assoc] at h
    have shorter := h.last.1
    have dead' := shorter.dead_of_destroys sound_start (by simp) destroyed
    have earlier : o ∈ (last.before.world.registry n).tokens ↔ _ :=
      ih shorter (h.usable_before usable) dead'
    rw [h.mem_tokens_last usable dead, earlier, ← List.cons_append, List.forall_mem_append,
      List.forall_mem_singleton, and_assoc]

/-- What a purge would reclaim are the entries of the dead. -/
theorem Path.reclaimable_iff (h : Path {} path s)
    (usable : s.world.Open n ∨ s.world.registries.size ≤ n) :
    Reclaimable path n o ↔
      o ∈ (s.world.registry n).tokens ∧ s.world.heap.isLive o = false := by
  constructor
  · rintro ⟨before, m, after, rfl, destroyed, entry, unswept⟩
    exact ⟨(h.mem_tokens_since usable destroyed).mpr ⟨entry, unswept⟩,
      h.dead_of_destroys sound_start (by simp) destroyed⟩
  · rintro ⟨entry, dead⟩
    obtain ⟨observed, -⟩ := (h.mem_tokens_iff usable).mp entry
    obtain ⟨m, mem, destroyed⟩ := h.destroys_of_registered sound_start observed dead
    obtain ⟨before, after, rfl⟩ := List.append_of_mem mem
    obtain ⟨held, unswept⟩ := (h.mem_tokens_since usable destroyed).mp entry
    exact ⟨before, m, after, rfl, destroyed, held, unswept⟩

/-! ### Purges -/

theorem Path.nodup_tokens (h : Path {} path s) (n : Nat) : (s.world.registry n).tokens.Nodup :=
  (h.sound sound_start).counted.nodup_tokens n

/-- A purge counts the reclaimable objects. -/
theorem Path.purge_eq_ncard (h : Path {} path s)
    (usable : s.world.Open n ∨ s.world.registries.size ≤ n) :
    (s.world.purge n).2 = {o | Reclaimable path n o}.ncard := by
  rw [purge_eq, Registry.count_sweep]
  refine Registry.length_filter_eq_ncard (h.nodup_tokens n) (fun o => !s.world.heap.isLive o) ?_
  intro o
  rw [h.reclaimable_iff usable, Bool.not_eq_true']

theorem sweeps_purge (s : Scene) (n : Nat) :
    Transition.sweeps ⟨s, [], ⟨(s.world.purge n).1, s.strong, s.weak⟩⟩ n = true := by
  have reported : (s.world.purge n).1.eventsOf n = s.world.eventsOf n ++
      ((s.world.registry n).sweep s.world.heap.isLive).1.events := by
    rw [purge_eq, eventsOf_apply, if_pos rfl]
  rw [Transition.sweeps, Transition.events_of_eq reported]
  rfl

/-- An object that was destroyed before a sweep is not reclaimable after it. -/
theorem not_reclaimable {before rest : List Transition} {m : Transition} (swept : m.sweeps n = true)
    (spared : ∀ k ∈ m :: rest, ¬k.Destroys o) : ¬Reclaimable (before ++ m :: rest) n o := by
  rintro ⟨first, k, after, split, destroyed, -, unswept⟩
  rcases List.append_eq_append_iff.mp split with ⟨c, -, tail⟩ | ⟨c, -, tail⟩
  · exact spared k (by simp [tail]) destroyed
  · have there : m ∈ k :: after := by simp [tail]
    rw [unswept m there] at swept
    cases swept

/-- After a purge no object is reclaimable until one is destroyed. -/
theorem Path.purge_again (h : Path {} path s) (usable : s.world.Open n) {rest : List Transition}
    (later : Path ⟨(s.world.purge n).1, s.strong, s.weak⟩ rest t)
    (spared : ∀ m ∈ rest, ∀ o, ¬m.Destroys o) : (t.world.purge n).2 = 0 := by
  have whole := (h.step (Step.purge usable)).trans later
  have none : ∀ o, ¬Transition.Destroys ⟨s, [], ⟨(s.world.purge n).1, s.strong, s.weak⟩⟩ o := by
    rintro o ⟨alive, dead⟩
    have same := (isLive_apply s.world n _ o).symm.trans dead
    rw [alive] at same
    cases same
  rcases Run.vacated whole.run sound_start vacated_start n with usable' | empty
  · rw [whole.purge_eq_ncard (Or.inl usable'), List.append_assoc]
    refine (congrArg Set.ncard (Set.eq_empty_of_forall_notMem fun o => ?_)).trans
      (Set.ncard_empty Object)
    exact not_reclaimable (sweeps_purge s n)
      (List.forall_mem_cons.mpr ⟨none o, fun m mem => spared m mem o⟩)
  · rw [purge_eq, Registry.count_sweep, empty]
    rfl

/-- The destruction of a purger removes its own entry. -/
theorem Path.perform_purger (h : Path {} path s) (usable : s.world.Open n) {name : String}
    {target : RegistryRef} (content : s.world.heap.content? o = some (.purger name target))
    (last : s.world.heap.strongCount o = 1) (number : s.world.refNumber? target = some n) :
    o ∉ ((s.world.perform (.release o)).1.registry n).tokens ∧
      (s.world.perform (.release o)).1.destroyed = s.world.destroyed ++
        [.purger name {p | Reclaimable path n p ∨ p = o ∧ Enlisted path n o}.ncard] := by
  have bound := usable.lt_size (h.sound sound_start).numbered
  have dead := isLive_unretain_last last
  rw [World.perform_purger content last number]
  constructor
  · rw [registry_report, registry_purge]
    · exact Registry.not_mem_tokens_sweep ((dead o).mpr (Or.inr rfl))
    · exact bound
  · have count : (({ s.world with heap := s.world.heap.unretain o } : World).purge n).2 =
        {p | Reclaimable path n p ∨ p = o ∧ Enlisted path n o}.ncard := by
      rw [purge_eq, Registry.count_sweep]
      refine Registry.length_filter_eq_ncard (h.nodup_tokens n)
        (fun p => !(s.world.heap.unretain o).isLive p) fun p => ?_
      rw [h.reclaimable_iff (Or.inl usable), ← h.mem_tokens_iff (Or.inl usable), Bool.not_eq_true',
        dead, and_or_left]
      refine or_congr_right (and_comm.trans (and_congr_left fun same => ?_))
      rw [same]
    rw [count]
    rfl

/-- The contents of tables are determined by the history: the objects that were observed and not
forgotten since have entries, unless they were destroyed and swept. The counters of a registry count
these entries, and a purge removes those of the objects that were destroyed since the last sweep.
After a purge every entry is of a live object, ids are as before, and another purge removes nothing
as long as no object is destroyed. A purge by the destructor of an object counts that object as
dead. -/
theorem contents_determined (h : Path {} path s) (usable : s.world.Open n) :
    (∀ o, o ∈ (s.world.registry n).tokens ↔ Enlisted path n o) ∧
    (s.world.registry n).size = {o | Enlisted path n o}.ncard ∧
    (s.world.stats n).live = {o | Enlisted path n o ∧ s.world.heap.isLive o = true}.ncard ∧
    (s.world.purge n).2 = {o | Reclaimable path n o}.ncard ∧
    ((s.world.purge n).1.stats n).entries = ((s.world.purge n).1.stats n).live ∧
    (∀ k o, s.world.heap.isLive o = true → (s.world.purge n).1.idOf k o = s.world.idOf k o) ∧
    (∀ rest t, Path ⟨(s.world.purge n).1, s.strong, s.weak⟩ rest t →
      (∀ m ∈ rest, ∀ o, ¬m.Destroys o) → (t.world.purge n).2 = 0) ∧
    (∀ o name target,
      s.world.heap.content? o = some (.purger name target) → s.world.heap.strongCount o = 1 →
      s.world.refNumber? target = some n →
      o ∉ ((s.world.perform (.release o)).1.registry n).tokens ∧
      (s.world.perform (.release o)).1.destroyed = s.world.destroyed ++
        [.purger name {p | Reclaimable path n p ∨ p = o ∧ Enlisted path n o}.ncard]) := by
  have sound := h.sound sound_start
  have bound := usable.lt_size sound.numbered
  have distinct := h.nodup_tokens n
  have enlisted : ∀ o, o ∈ (s.world.registry n).tokens ↔ Enlisted path n o :=
    fun o => h.mem_tokens_iff (Or.inl usable)
  refine ⟨enlisted, ?_, ?_, h.purge_eq_ncard (Or.inl usable), ?_, ?_, ?_, ?_⟩
  · have all := Registry.length_filter_eq_ncard distinct (fun _ => true) (p := Enlisted path n)
      fun o => by rw [enlisted, and_iff_left rfl]
    rwa [List.filter_true] at all
  · refine Registry.length_filter_eq_ncard distinct s.world.heap.isLive fun o => ?_
    rw [enlisted]
  · exact stats_purge bound
  · exact fun k o live => idOf_purge sound bound k live
  · exact fun rest t later spared => h.purge_again usable later spared
  · exact fun o name target content last number => h.perform_purger usable content last number

/-- A purger that is registered in the registry that it purges. -/
theorem exists_path_purger :
    ∃ path s, Path {} path s ∧ s.world.Open 1 ∧ ⟨1⟩ ∈ (s.world.registry 1).tokens ∧
      s.world.heap.content? ⟨1⟩ = some (.purger "p" (.shared ⟨0⟩)) ∧
      s.world.heap.strongCount ⟨1⟩ = 1 ∧
      s.world.refNumber? (.shared ⟨0⟩) = some 1 ∧ s.world.destroyed = [] ∧
      (s.world.perform (.release ⟨1⟩)).1.destroyed = [.purger "p" 1] := by
  have usable : ∀ {w : World}, w.heap.isLive ⟨0⟩ = true → w.registryNumber? ⟨0⟩ = some 1 →
      w.Open 1 := fun live number => Or.inr ⟨⟨0⟩, live, number⟩
  have held : ∀ o ∈ (Content.purger "p" (.shared ⟨0⟩)).owned,
      o ∈ (⟨0⟩ ::ₘ 0 : Multiset Object) := by
    simp [Content.owned, RegistryRef.owned]
  have opened : Path {} _ _ :=
    (Path.refl {}).step
      (Step.openRegistry .beyond (show Options.validate {} = .ok () from rfl) rfl)
  have created := opened.step (Step.create .beyond (.aligned 8 40) held (by simp))
  have observed := created.step (Step.ask ⟨1, .observe, ⟨1⟩⟩
    (usable (by decide +kernel) (by decide +kernel)) (Multiset.mem_cons_self _ _))
  exact ⟨_, _, observed, usable (by decide +kernel) (by decide +kernel), by decide +kernel,
    by decide +kernel, by decide +kernel, by decide +kernel, rfl, by decide +kernel⟩

/-- The destruction of a purger reclaims its own entry, which is the only one. -/
theorem contents_determined_purger :
    ∃ path s, Path {} path s ∧ s.world.Open 1 ∧ Enlisted path 1 ⟨1⟩ ∧
      (s.world.perform (.release ⟨1⟩)).1.destroyed = [.purger "p" 1] ∧
      {p | Reclaimable path 1 p ∨ p = ⟨1⟩ ∧ Enlisted path 1 ⟨1⟩}.ncard = 1 := by
  obtain ⟨path, s, h, usable, entry, content, last, number, before, after⟩ := exists_path_purger
  obtain ⟨entries, -, -, -, -, -, -, purger⟩ := contents_determined h usable
  have reported := (purger ⟨1⟩ "p" (.shared ⟨0⟩) content last number).2
  rw [before, after, List.nil_append, List.singleton_inj] at reported
  exact ⟨path, s, h, usable, (entries ⟨1⟩).mp entry, after,
    (Destruction.purger.inj reported).2.symm⟩

end Scene

end WeakIdentity
