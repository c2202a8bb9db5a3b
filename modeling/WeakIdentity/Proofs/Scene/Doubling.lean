import Mathlib.Order.Bounds.Basic
import WeakIdentity.Proofs.Ledger.Observations
import WeakIdentity.Proofs.Scene.Conservation
import WeakIdentity.Proofs.Scene.Insertion

/-! Tables all of whose objects stay live. Their sweeps remove nothing, and each of them doubles the
watermark, so that there are only as many as it takes to double the threshold up to the number of
objects. -/

namespace WeakIdentity

namespace Registry

variable {r : Registry} {alive : Object → Bool} {journal : List Event} {j : Nat}

section Alive

variable (all : ∀ o ∈ r.tokens, alive o = true)
include all

theorem filter_of_alive : (r.entries.filter fun entry => alive entry.token) = r.entries :=
  List.filter_eq_self.mpr fun _ mem => all _ (mem_tokens mem)

theorem live_of_alive : (r.stats alive).live = r.size := by
  rw [stats, filter_of_alive all]
  rfl

/-- A sweep of a table without dead entries only moves the watermark. -/
theorem sweep_of_alive :
    (r.sweep alive).1 =
      { registry :=
          { r with watermark := max r.threshold (doubled r.size), sweeps := r.sweeps + 1 }
        events := [.sweep 0 r.size (max r.threshold (doubled r.size))] } := by
  have none : (r.entries.filter fun entry => !alive entry.token) = [] := by
    rw [List.filter_eq_nil_iff]
    intro entry mem
    simp [all _ (mem_tokens mem)]
  have count : r.size - r.entries.length = 0 := Nat.sub_self _
  have reclaimed : r.reclaimed + .ofNat 0 = r.reclaimed := UInt64.add_zero _
  simp only [sweep, filter_of_alive all, none, count, reclaimed, List.map_nil]
  rfl

end Alive

/-- The events of the first sweeps, if each of them finds only live entries: the number of entries
doubles from one to the next. -/
def doublings (threshold j : Nat) : List Event :=
  (List.range j).map fun i => .sweep 0 (threshold * 2 ^ i) (.ofNat (threshold * 2 ^ (i + 1)))

theorem doublings_succ (threshold j : Nat) :
    doublings threshold (j + 1) = doublings threshold j ++
      [.sweep 0 (threshold * 2 ^ j) (.ofNat (threshold * 2 ^ (j + 1)))] := by
  rw [doublings, List.range_succ, List.map_append]
  rfl

/-- The table of a registry with this journal has grown without a loss, and `j` sweeps have doubled
its watermark just as often as its size required. -/
structure Doubling (r : Registry) (journal : List Event) (j : Nat) : Prop where
  reclaimed : r.reclaimed = 0
  minted : r.minted = .ofNat r.size
  sweeps : r.sweeps = .ofNat j
  watermark : r.watermark.toNat = r.threshold.toNat * 2 ^ j
  least : IsLeast {i | r.size ≤ r.threshold.toNat * 2 ^ i} j
  events : journal.filter Event.isSweep = doublings r.threshold.toNat j

theorem doubling_ofOptions (options : Options) : (ofOptions options).Doubling [] 0 where
  reclaimed := rfl
  minted := rfl
  sweeps := rfl
  watermark := (Nat.mul_one _).symm
  least := ⟨Nat.zero_le _, fun _ _ => Nat.zero_le _⟩
  events := rfl

theorem Doubling.same (doubling : r.Doubling journal j) : r.Doubling (journal ++ []) j := by
  rwa [List.append_nil]

/-- An entry for which there is room. -/
theorem Doubling.insert (doubling : r.Doubling journal j) (room : r.size < r.watermark.toNat)
    {address : Nat} (unknown : r.find? address = none) (alive : Object → Bool) (object : Object) :
    (r.observe alive address object).1.registry.Doubling
      (journal ++ (r.observe alive address object).1.events) j := by
  rw [observe_of_unknown unknown, makeRoom_of_lt room]
  refine ⟨doubling.reclaimed, ?_, doubling.sweeps, doubling.watermark, ⟨?_, ?_⟩, ?_⟩
  · exact (congrArg (· + 1) doubling.minted).trans (UInt64.ofNat_add r.size 1).symm
  · rw [doubling.watermark] at room
    exact room
  · intro i fits
    exact doubling.least.2 (Nat.le_of_succ_le fits)
  · rw [List.filter_append, doubling.events]
    exact List.append_nil _

/-- An entry for which a sweep has to make room, which it does by doubling the watermark. -/
theorem Doubling.sweep (doubling : r.Doubling journal j) (accepted : 0 < r.threshold.toNat)
    (small : r.size < 2 ^ 63) (full : r.watermark.toNat ≤ r.size)
    (all : ∀ o ∈ r.tokens, alive o = true) {address : Nat} (unknown : r.find? address = none)
    (object : Object) :
    (r.observe alive address object).1.registry.Doubling
      (journal ++ (r.observe alive address object).1.events) (j + 1) := by
  have size : r.size = r.threshold.toNat * 2 ^ j := by
    rw [doubling.watermark] at full
    exact Nat.le_antisymm doubling.least.1 full
  have positive : r.threshold.toNat ≤ r.size := by
    rw [size]
    exact Nat.le_mul_of_pos_right _ (Nat.two_pow_pos j)
  have twice : r.threshold.toNat * 2 ^ (j + 1) = 2 * r.size := by
    rw [size, Nat.pow_succ, ← Nat.mul_assoc, Nat.mul_comm]
  have watermark : (max r.threshold (doubled r.size)).toNat = r.threshold.toNat * 2 ^ (j + 1) := by
    rw [UInt64.toNat_max, toNat_doubled small, twice]
    omega
  rw [observe_of_unknown unknown, makeRoom_of_le full, sweep_of_alive all]
  refine ⟨doubling.reclaimed, ?_, ?_, watermark, ⟨?_, ?_⟩, ?_⟩
  · exact (congrArg (· + 1) doubling.minted).trans (UInt64.ofNat_add r.size 1).symm
  · exact (congrArg (· + 1) doubling.sweeps).trans (UInt64.ofNat_add j 1).symm
  · have bound : r.size + 1 ≤ r.threshold.toNat * 2 ^ (j + 1) := by omega
    exact bound
  · intro i fits
    have more : r.size < r.threshold.toNat * 2 ^ i := fits
    by_contra less
    have fewer : 2 ^ i ≤ 2 ^ j := Nat.pow_le_pow_right Nat.two_pos (by omega)
    have bounded := Nat.mul_le_mul_left r.threshold.toNat fewer
    omega
  · rw [List.filter_append, doubling.events]
    refine Eq.trans ?_ (doublings_succ r.threshold.toNat j).symm
    rw [← watermark, UInt64.ofNat_toNat, ← size]
    rfl

/-- What a registry does in its turn, unless it is purged or forgets an object. -/
theorem Turn.doubling {usable : Prop} {call : Option Call} {change : Change}
    (turn : r.Turn alive usable call change) (there : usable) (accepted : 0 < r.threshold.toNat)
    (small : r.size < 2 ^ 63 ∨ change.registry.size = r.size)
    (all : ∀ o ∈ r.tokens, alive o = true)
    (kept : (change.events.map Event.forgotten).sum = 0)
    (unpurged : call = none → change.events.any Event.isSweep = false)
    (doubling : r.Doubling journal j) :
    ∃ i, change.registry.Doubling (journal ++ change.events) i := by
  cases turn with
  | lookup => exact ⟨j, doubling.same⟩
  | purge => cases unpurged rfl
  | close gone => exact absurd there gone
  | forget address live =>
    cases found : r.find? address with
    | none =>
      rw [forget_of_unknown found]
      exact ⟨j, doubling.same⟩
    | some entry =>
      rw [forget_of_found found] at kept
      cases kept
  | @observe address object live =>
    cases found : r.find? address with
    | some entry =>
      rw [observe_of_found found]
      exact ⟨j, doubling.same⟩
    | none =>
      by_cases full : r.watermark.toNat ≤ r.size
      · refine ⟨j + 1, doubling.sweep accepted (small.resolve_right ?_) full all found object⟩
        rw [observe_of_unknown found, makeRoom_of_le full, sweep_of_alive all]
        exact Nat.succ_ne_self _
      · exact ⟨j, doubling.insert (Nat.not_le.mp full) found alive object⟩

end Registry

/-- If no object is forgotten, the registered objects are the observed ones. -/
theorem registered_iff_observed {calls : List CallRecord} {n : Nat} {o : Object}
    (kept : calls.countP (CallRecord.unregisters · n) = 0) :
    Registered calls n o ↔ o ∈ observed n (calls.map CallRecord.query) := by
  rw [mem_observed, List.mem_map]
  constructor
  · rintro ⟨before, d, after, rfl, query, -⟩
    exact ⟨d, by simp, query⟩
  · rintro ⟨d, mem, query⟩
    obtain ⟨before, after, rfl⟩ := List.append_of_mem mem
    refine ⟨before, d, after, rfl, query, ?_⟩
    rintro later there ⟨forget, known⟩
    refine List.countP_eq_zero.mp kept later (by simp [there]) ?_
    simp [CallRecord.unregisters, forget, Option.isSome_iff_ne_none.mpr known]

namespace Scene

open World

variable {s : Scene} {path : List Transition} {n : Nat}

/-- The objects that a registry was made to observe on a path. -/
def seen (n : Nat) (path : List Transition) : Finset Object :=
  observed n ((history path).map CallRecord.query)

theorem seen_subset (n : Nat) (first second : List Transition) :
    seen n first ⊆ seen n (first ++ second) := by
  intro o mem
  rw [seen, mem_observed] at mem ⊢
  rw [history_append, List.map_append]
  exact List.mem_append_left _ mem

/-- A registry is neither purged on a path nor made to forget an object, and no object that it has
observed is destroyed. -/
structure Undisturbed (n : Nat) (path : List Transition) : Prop where
  unpurged : ∀ m ∈ path, ¬m.Purges n
  kept : unregistrations n path = 0
  spared : ∀ m ∈ path, ∀ o ∈ seen n path, ¬m.Destroys o

theorem Undisturbed.of_append {first second : List Transition}
    (undisturbed : Undisturbed n (first ++ second)) : Undisturbed n first where
  unpurged m mem := undisturbed.unpurged m (List.mem_append_left _ mem)
  kept := by
    have kept := undisturbed.kept
    rw [unregistrations, history_append, List.countP_append, Nat.add_eq_zero_iff] at kept
    exact kept.1
  spared m mem o there :=
    undisturbed.spared m (List.mem_append_left _ mem) o (seen_subset n first second there)

section Undisturbed

variable (undisturbed : Undisturbed n path) (h : Path {} path s)
include undisturbed h

theorem Undisturbed.alive {o : Object} (mem : o ∈ seen n path) :
    s.world.heap.isLive o = true := by
  rw [seen, mem_observed, List.mem_map] at mem
  obtain ⟨d, there, query⟩ := mem
  have object : d.query.object = o := by rw [query]
  by_contra dead
  rw [Bool.not_eq_true, ← object] at dead
  obtain ⟨m, on, destroyed⟩ := h.destroys_of_asked sound_start there dead
  rw [object] at destroyed
  refine undisturbed.spared m on o ?_ destroyed
  rw [seen, mem_observed, ← query]
  exact List.mem_map_of_mem there

/-- The table holds all objects that the registry has observed. -/
theorem Undisturbed.mem_tokens (usable : s.world.Open n ∨ s.world.registries.size ≤ n)
    {o : Object} : o ∈ (s.world.registry n).tokens ↔ o ∈ seen n path := by
  rw [h.mem_tokens_iff usable, Enlisted, registered_iff_observed undisturbed.kept]
  refine and_iff_left_of_imp ?_
  rintro mem ⟨before, m, after, rfl, destroyed, -⟩
  exact undisturbed.spared m (by simp) o mem destroyed

theorem Undisturbed.size_eq (usable : s.world.Open n ∨ s.world.registries.size ≤ n) :
    (s.world.registry n).size = (seen n path).card := by
  have named : (s.world.registry n).tokens.toFinset = seen n path := by
    ext o
    rw [List.mem_toFinset, undisturbed.mem_tokens h usable]
  rw [← named, List.toFinset_card_of_nodup (h.nodup_tokens n), Registry.tokens, List.length_map]
  rfl

end Undisturbed

/-- The watermark of an undisturbed registry doubles, and does so no more often than it must. -/
theorem Undisturbed.doubling (undisturbed : Undisturbed n path) (h : Path {} path s)
    (usable : s.world.Open n ∨ s.world.registries.size ≤ n) (few : (seen n path).card ≤ 2 ^ 63) :
    ∃ j, (s.world.registry n).Doubling (s.world.eventsOf n) j := by
  induction path using List.reverseRecOn generalizing s with
  | nil =>
    cases h.eq_of_nil
    rw [registry_start]
    exact ⟨0, Registry.doubling_ofOptions {}⟩
  | append_singleton path m ih =>
    have mem : m ∈ path ++ [m] := List.mem_append_right _ List.mem_cons_self
    have turns := h.turns sound_start mem n
    have before := h.usable_before usable
    have earlier := undisturbed.of_append
    have size := undisturbed.size_eq h usable
    have grown := Finset.card_le_card (seen_subset n path [m])
    have lives : ∀ o ∈ seen n path, s.world.heap.isLive o = true :=
      fun o there => undisturbed.alive h (seen_subset n path [m] there)
    have forgotten := h.forgotten_eq (n := n) sound_start mem
    have sweeps := h.sweeps_iff (n := n) sound_start mem
    obtain ⟨first, step, rfl⟩ := h.last
    obtain ⟨j, doubling⟩ := ih earlier first before (Nat.le_trans grown few)
    have old := earlier.size_eq first before
    generalize told : callTo n m.calls = call at turns
    cases turns with
    | rest registry events =>
      rw [registry, events]
      exact ⟨j, doubling⟩
    | opened valid new size registry events =>
      rw [registry, events, first.silent (Nat.le_of_eq new.symm)]
      exact ⟨0, Registry.doubling_ofOptions _⟩
    | turn bound turn registry events =>
      have later := (step.later (first.sound sound_start)).registries
      rw [Transition.events_of_eq events] at forgotten
      rw [Transition.sweeps_of_eq events] at sweeps
      rw [registry, events]
      refine turn.doubling (usable.resolve_right (by omega))
        (Reachable.accepted first.run n) ?_ ?_ ?_ ?_ doubling
      · rw [← registry]
        omega
      · exact fun o there => lives o ((earlier.mem_tokens first before).mp there)
      · have kept := undisturbed.kept
        rw [unregistrations, history_append, List.countP_append, history_singleton] at kept
        omega
      · rintro rfl
        rw [← Bool.not_eq_true, sweeps]
        rintro (purged | ⟨o, answer, asked, -⟩)
        · exact undisturbed.unpurged m mem purged
        · rw [asked, callTo_singleton, if_pos rfl] at told
          cases told

/-- A path at whose end all objects that a registry observed on it are live is undisturbed. -/
theorem Path.undisturbed (h : Path {} path s) (unpurged : purges n path = 0)
    (kept : unregistrations n path = 0)
    (alive : ∀ o ∈ seen n path, s.world.heap.isLive o = true) : Undisturbed n path where
  unpurged m mem := by simpa using List.countP_eq_zero.mp unpurged m mem
  kept := kept
  spared m mem o there := h.not_destroys sound_start (Or.inl (alive o there)) mem

/-- Growth in closed form. A registry that observes some objects, each of them any number of times
and in any order, while none of them is destroyed, sweeps as often as the threshold of its options
has to be doubled to be no less than their number. The sweeps reclaim nothing, each doubles the
watermark exactly, and afterwards there is one live entry for each object. -/
theorem growth_exact (h : Path {} path s) (usable : s.world.Open n) (unpurged : purges n path = 0)
    (kept : unregistrations n path = 0)
    (alive : ∀ o ∈ seen n path, s.world.heap.isLive o = true) {threshold count : Nat}
    (begun : (s.world.registry n).threshold.toNat = threshold)
    (distinct : (seen n path).card = count) (few : count ≤ 2 ^ 63) :
    0 < threshold ∧
    (∃ options, OpenedWith path n options) ∧
    (∀ options, OpenedWith path n options → options.sweepThreshold.toNat = threshold) ∧
    ∃ j, IsLeast {i | count ≤ threshold * 2 ^ i} j ∧ threshold * 2 ^ j < 2 ^ 64 ∧
      (s.world.registry n).watermark.toNat = threshold * 2 ^ j ∧
      (s.world.stats n).toList = [count, count, count, 0, j] ∧
      (s.world.eventsOf n).filter Event.isSweep =
        (List.range j).map fun i =>
          .sweep 0 (threshold * 2 ^ i) (.ofNat (threshold * 2 ^ (i + 1))) := by
  subst begun distinct
  have accepted := Reachable.accepted h.run n
  have undisturbed := h.undisturbed unpurged kept alive
  have size := undisturbed.size_eq h (Or.inl usable)
  obtain ⟨j, doubling⟩ := undisturbed.doubling h (Or.inl usable) few
  have live : (s.world.stats n).live = (seen n path).card :=
    (Registry.live_of_alive fun o mem =>
      alive o ((undisturbed.mem_tokens h (Or.inl usable)).mp mem)).trans size
  have least := doubling.least
  rw [size] at least
  have rare : j ≤ 63 := least.2 (Nat.le_trans few (Nat.le_mul_of_pos_left _ accepted))
  have word := (s.world.registry n).watermark.toNat_lt
  refine ⟨accepted, h.exists_openedWith (usable.lt_size (h.sound sound_start).numbered),
    fun _ opened => congrArg UInt64.toNat (h.threshold_of_openedWith opened).symm,
    j, least, doubling.watermark ▸ word, doubling.watermark, ?_, doubling.events⟩
  have minted : (s.world.stats n).minted.toNat = (seen n path).card := by
    refine (congrArg UInt64.toNat doubling.minted).trans ?_
    rw [UInt64.toNat_ofNat_of_lt' (by rw [size]; exact Nat.lt_of_le_of_lt few (by decide)), size]
  have reclaimed : (s.world.stats n).reclaimed.toNat = 0 := congrArg UInt64.toNat doubling.reclaimed
  have sweeps : (s.world.stats n).sweeps.toNat = j := by
    refine (congrArg UInt64.toNat doubling.sweeps).trans (UInt64.toNat_ofNat_of_lt' ?_)
    exact Nat.lt_of_le_of_lt rare (by decide)
  rw [Stats.toList, live, minted, reclaimed, sweeps]
  exact congrArg (List.cons · _) size

/-- Where all sweeps are in calls, there are no purges. -/
theorem Path.purges_eq_zero (h : Path {} path s)
    (called : ∀ m ∈ path, m.calls = [] → m.sweeps n = false) : purges n path = 0 := by
  classical
  refine List.countP_eq_zero.mpr fun m mem => ?_
  rw [decide_eq_true_iff]
  intro purged
  have swept := (h.sweeps_iff sound_start mem).mpr (Or.inl purged)
  rw [called m mem purged.1] at swept
  cases swept

/-- A registry with the threshold one and three objects, the first of which is observed again after
the second. -/
theorem exists_path_growing :
    ∃ path s, Path {} path s ∧ s.world.Open 1 ∧ purges 1 path = 0 ∧
      unregistrations 1 path = 0 ∧ seen 1 path = {⟨1⟩, ⟨2⟩, ⟨3⟩} ∧
      (∀ o ∈ seen 1 path, s.world.heap.isLive o = true) ∧ (s.world.registry 1).threshold = 1 := by
  have held : ∀ (strong : Multiset Object), ∀ o ∈ Content.plain.owned, o ∈ strong := by
    simp [Content.owned]
  have usable : ∀ {w : World}, w.heap.isLive ⟨0⟩ = true → w.registryNumber? ⟨0⟩ = some 1 →
      w.Open 1 := fun live number => Or.inr ⟨⟨0⟩, live, number⟩
  have opened : Path {} _ _ :=
    (Path.refl {}).step
      (Step.openRegistry .beyond (show Options.validate ⟨0, 1⟩ = .ok () from rfl) rfl)
  have first := opened.step (Step.create .beyond (.aligned 1 0) (held _) (by simp))
  have second := first.step (Step.create .beyond (.aligned 1 0) (held _) (by simp))
  have third := second.step (Step.create .beyond (.aligned 1 0) (held _) (by simp))
  have one := third.step (Step.ask ⟨1, .observe, ⟨1⟩⟩
    (usable (by decide +kernel) (by decide +kernel))
    (Multiset.mem_cons_of_mem (Multiset.mem_cons_of_mem (Multiset.mem_cons_self _ _))))
  have two := one.step (Step.ask ⟨1, .observe, ⟨2⟩⟩
    (usable (by decide +kernel) (by decide +kernel))
    (Multiset.mem_cons_of_mem (Multiset.mem_cons_self _ _)))
  have again := two.step (Step.ask ⟨1, .observe, ⟨1⟩⟩
    (usable (by decide +kernel) (by decide +kernel))
    (Multiset.mem_cons_of_mem (Multiset.mem_cons_of_mem (Multiset.mem_cons_self _ _))))
  have three := again.step (Step.ask ⟨1, .observe, ⟨3⟩⟩
    (usable (by decide +kernel) (by decide +kernel)) (Multiset.mem_cons_self _ _))
  exact ⟨_, _, three, usable (by decide +kernel) (by decide +kernel),
    three.purges_eq_zero (by decide +kernel), by decide +kernel, by decide +kernel,
    by decide +kernel, by decide +kernel⟩

/-- Three objects, for which the threshold has to be doubled twice. -/
theorem growth_exact_three :
    ∃ path s, Path {} path s ∧ s.world.Open 1 ∧ purges 1 path = 0 ∧ unregistrations 1 path = 0 ∧
      (∀ o ∈ seen 1 path, s.world.heap.isLive o = true) ∧
      (s.world.registry 1).threshold.toNat = 1 ∧ (seen 1 path).card = 3 ∧ 3 ≤ 2 ^ 63 ∧
      (s.world.registry 1).watermark.toNat = 4 ∧ (s.world.stats 1).toList = [3, 3, 3, 0, 2] ∧
      (s.world.eventsOf 1).filter Event.isSweep = [.sweep 0 1 2, .sweep 0 2 4] := by
  obtain ⟨path, s, h, usable, unpurged, kept, seen, alive, begun⟩ := exists_path_growing
  have begun' : (s.world.registry 1).threshold.toNat = 1 := congrArg UInt64.toNat begun
  have distinct : (Scene.seen 1 path).card = 3 := by
    rw [seen]
    rfl
  have few : 3 ≤ 2 ^ 63 := by decide
  obtain ⟨-, -, -, j, least, -, watermark, stats, sweeps⟩ :=
    growth_exact h usable unpurged kept alive begun' distinct few
  obtain rfl : j = 2 := by
    have two : IsLeast {i | 3 ≤ 1 * 2 ^ i} 2 := by
      refine ⟨by decide, fun i fits => ?_⟩
      by_contra less
      have small : i = 0 ∨ i = 1 := by omega
      rcases small with rfl | rfl <;> exact absurd fits (by decide)
    exact least.unique two
  exact ⟨path, s, h, usable, unpurged, kept, alive, begun', distinct, few, watermark, stats, sweeps⟩

end Scene

end WeakIdentity
