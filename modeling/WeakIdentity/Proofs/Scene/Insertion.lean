import WeakIdentity.Proofs.Ledger.Agreement
import WeakIdentity.Proofs.Scene.Growth
import WeakIdentity.Proofs.World.Commute

/-! An insertion that sweeps is a purge and then an insertion. The insertion after the purge looks
at the watermark again, and finds room, because the purge has moved the watermark beyond what it has
left: to twice as much, or to the threshold, which no registry has at zero. -/

namespace WeakIdentity

namespace Registry

variable {r : Registry} {alive : Object → Bool}

theorem find?_sweep_of_unknown {address : Nat} (unknown : r.find? address = none) :
    (r.sweep alive).1.registry.find? address = none := by
  rw [find?_eq_none_iff] at unknown ⊢
  exact fun entry mem => unknown entry ((sublist_sweep alive r).subset mem)

/-- An insertion after a sweep does not sweep. -/
theorem observe_sweep (accepted : 0 < r.threshold.toNat)
    (few : (r.stats alive).live + 1 < 2 ^ 64) {address : Nat} (unknown : r.find? address = none)
    (object : Object) :
    (r.sweep alive).1.registry.observe alive address object =
      ({ registry :=
          { (r.sweep alive).1.registry with
            entries := ⟨address, ⟨r.minted⟩, object⟩ :: (r.sweep alive).1.registry.entries
            minted := r.minted + 1 }
         taken := [object]
         events := [.assign ⟨r.minted⟩ ((r.sweep alive).1.registry.entries.length + 1)] },
        ⟨r.minted⟩) := by
  rw [observe_of_unknown (find?_sweep_of_unknown unknown),
    makeRoom_of_lt (room_sweep alive r few accepted)]
  rfl

end Registry

namespace World

variable {w : World} {n : Nat} {o : Object}

/-- A purge and then an insertion, as one change. -/
theorem observe_purge (bound : n < w.registries.size) (live : w.heap.isLive o = true)
    (unknown : w.idOf n o = none) (accepted : 0 < (w.registry n).threshold.toNat)
    (few : (w.stats n).live + 1 < 2 ^ 64) :
    (w.purge n).1.observe n o =
      (w.apply n
        { registry :=
            { ((w.registry n).sweep w.heap.isLive).1.registry with
              entries := ⟨w.heap.address o, ⟨(w.registry n).minted⟩, o⟩ ::
                ((w.registry n).sweep w.heap.isLive).1.registry.entries
              minted := (w.registry n).minted + 1 }
          taken := [o]
          released := ((w.registry n).sweep w.heap.isLive).1.released
          events := ((w.registry n).sweep w.heap.isLive).1.events ++
            [.assign ⟨(w.registry n).minted⟩
              (((w.registry n).sweep w.heap.isLive).1.registry.entries.length + 1)] },
        ⟨(w.registry n).minted⟩) := by
  have alive : (w.purge n).1.heap.isLive = w.heap.isLive := funext (isLive_apply w n _)
  have address : (w.purge n).1.heap.address o = w.heap.address o := address_apply w n _ o
  have swept : (w.purge n).1.registry n = ((w.registry n).sweep w.heap.isLive).1.registry := by
    rw [purge_eq, registry_apply bound, if_pos rfl]
  have missing : (w.registry n).find? (w.heap.address o) = none := by
    rwa [idOf_eq, Registry.idOf, Option.map_eq_none_iff] at unknown
  -- Only references to dead objects are released, so the order does not matter.
  have apart : ∀ p ∈ [o], p ∉ ((w.registry n).sweep w.heap.isLive).1.released := by
    intro p mem released
    obtain rfl := List.mem_singleton.mp mem
    simp only [Registry.sweep, List.mem_map, List.mem_filter, Bool.not_eq_true'] at released
    obtain ⟨entry, ⟨-, dead⟩, rfl⟩ := released
    rw [live] at dead
    cases dead
  rw [observe_eq, alive, address, swept, Registry.observe_sweep accepted few missing, purge_eq,
    apply_apply n rfl rfl apart]

/-- An insertion into a full table purges it first. -/
theorem observe_of_full (bound : n < w.registries.size) (live : w.heap.isLive o = true)
    (unknown : w.idOf n o = none) (accepted : 0 < (w.registry n).threshold.toNat)
    (few : (w.stats n).live + 1 < 2 ^ 64)
    (full : (w.registry n).watermark.toNat ≤ (w.registry n).size) :
    w.observe n o = (w.purge n).1.observe n o := by
  rw [observe_purge bound live unknown accepted few, observe_of_unknown unknown,
    Registry.makeRoom_of_le full]

/-- No step makes the threshold of a registry zero. -/
theorem Turns.accepted {v : World} {call : Option Call} (turns : w.Turns v n call)
    (accepted : 0 < (w.registry n).threshold.toNat) : 0 < (v.registry n).threshold.toNat := by
  cases turns with
  | rest registry events => rwa [registry]
  | opened valid new size registry events =>
    rw [registry]
    exact (Registry.spaced_ofOptions valid).accepted
  | turn bound turn registry events => rwa [registry, turn.growth.threshold]

end World

namespace Scene

theorem Run.accepted {s t : Scene} {calls : List CallRecord} (run : Run s calls t) (sound : s.Sound)
    {n : Nat} (accepted : 0 < (s.world.registry n).threshold.toNat) :
    0 < (t.world.registry n).threshold.toNat := by
  induction run with
  | refl => exact accepted
  | step before last ih => exact (last.turns (before.sound sound) n).accepted ih

theorem Reachable.accepted {history : List CallRecord} {s : Scene} (h : Reachable history s)
    (n : Nat) : 0 < (s.world.registry n).threshold.toNat := by
  refine Run.accepted h sound_start ?_
  rw [registry_start]
  decide

/-- A table of two entries, as many as its threshold, one of them of a dead object, and an object
without an entry. -/
theorem exists_full :
    ∃ history s, Reachable history s ∧ s.world.Open 1 ∧ ⟨3⟩ ∈ s.strong ∧
      ⟨3⟩ ∉ (s.world.registry 1).tokens ∧ (s.world.stats 1).live = 1 ∧
      (s.world.registry 1).size = 2 ∧ (s.world.registry 1).watermark = 2 := by
  have held : ∀ (strong : Multiset Object), ∀ o ∈ Content.plain.owned, o ∈ strong := by
    simp [Content.owned]
  have usable : ∀ {w : World}, w.heap.isLive ⟨0⟩ = true → w.registryNumber? ⟨0⟩ = some 1 →
      w.Open 1 := fun live number => Or.inr ⟨⟨0⟩, live, number⟩
  have opened : Reachable _ _ :=
    (Run.refl {}).step
      (Step.openRegistry .beyond (show Options.validate ⟨0, 2⟩ = .ok () from rfl) rfl)
  have first := opened.step (Step.create .beyond (.aligned 1 0) (held _) (by simp))
  have second := first.step (Step.create .beyond (.aligned 1 0) (held _) (by simp))
  have observed := second.step (Step.ask ⟨1, .observe, ⟨1⟩⟩
    (usable (by decide +kernel) (by decide +kernel))
    (Multiset.mem_cons_of_mem (Multiset.mem_cons_self _ _)))
  have both := observed.step (Step.ask ⟨1, .observe, ⟨2⟩⟩
    (usable (by decide +kernel) (by decide +kernel)) (Multiset.mem_cons_self _ _))
  have dropped := both.step (Step.drop ⟨2⟩)
  have third := dropped.step (Step.create .beyond (.aligned 1 0) (held _) (by simp))
  refine ⟨_, _, third, usable (by decide +kernel) (by decide +kernel), ?_, by decide +kernel,
    by decide +kernel, by decide +kernel, by decide +kernel⟩
  dsimp only
  rw [Multiset.mem_cons]
  exact Or.inl (by decide +kernel)

/-- An insertion into a table that has reached its watermark is a purge followed by an insertion:
the same world in every respect, and the same id. A purge followed by an insertion sweeps once,
whether or not the table was full. The limit is that of the watermark, which stays at the greatest
word when there are more entries than that. -/
theorem insertion_purges {history : List CallRecord} {s : Scene} (h : Reachable history s) {n : Nat}
    (usable : s.world.Open n) {o : Object} (held : o ∈ s.strong)
    (unregistered : o ∉ (s.world.registry n).tokens) (few : (s.world.stats n).live + 1 < 2 ^ 64) :
    ((s.world.registry n).watermark.toNat ≤ (s.world.registry n).size →
      s.world.observe n o = (s.world.purge n).1.observe n o) ∧
    ∀ after id, (s.world.purge n).1.observe n o = (after, id) →
      after.events = s.world.events ++
        [(n, .sweep ((s.world.registry n).size - (s.world.stats n).live) (s.world.stats n).live
            (after.registry n).watermark),
          (n, .assign id ((s.world.stats n).live + 1))] ∧
      (after.registry n).sweeps = (s.world.registry n).sweeps + 1 := by
  have sound := h.sound
  have bound := usable.lt_size sound.numbered
  have live := sound.counted.live_of_mem held
  have unknown : s.world.idOf n o = none :=
    (sound.counted.idOf_eq_none (sound.counted.reserved_of_live live)).mpr unregistered
  refine ⟨World.observe_of_full bound live unknown (h.accepted n) few, ?_⟩
  intro after id purged
  rw [World.observe_purge bound live unknown (h.accepted n) few] at purged
  obtain ⟨rfl, rfl⟩ := Prod.mk.inj purged
  rw [World.registry_apply bound, if_pos rfl]
  exact ⟨rfl, rfl⟩

theorem insertion_purges_full :
    ∃ history s, Reachable history s ∧ s.world.Open 1 ∧ ⟨3⟩ ∈ s.strong ∧
      ⟨3⟩ ∉ (s.world.registry 1).tokens ∧ (s.world.stats 1).live + 1 < 2 ^ 64 ∧
      (s.world.registry 1).watermark.toNat ≤ (s.world.registry 1).size ∧
      s.world.observe 1 (Object.mk 3) = (s.world.purge 1).1.observe 1 (Object.mk 3) ∧
      ((s.world.observe 1 (Object.mk 3)).1.registry 1).sweeps =
        (s.world.registry 1).sweeps + 1 := by
  obtain ⟨history, s, h, usable, held, unregistered, live, size, watermark⟩ := exists_full
  have few : (s.world.stats 1).live + 1 < 2 ^ 64 := by
    rw [live]
    decide
  have full : (s.world.registry 1).watermark.toNat ≤ (s.world.registry 1).size := by
    rw [size, watermark]
    decide
  obtain ⟨same, once⟩ := insertion_purges h usable held unregistered few
  refine ⟨history, s, h, usable, held, unregistered, few, full, same full, ?_⟩
  rw [same full]
  exact (once _ _ rfl).2

end Scene

end WeakIdentity
