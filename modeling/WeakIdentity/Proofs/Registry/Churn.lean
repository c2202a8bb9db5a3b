import WeakIdentity.Proofs.Registry.Watermark

/-! Tables whose entries are all of dead objects, as after objects are created, observed and dropped
one after another. The table fills up to the threshold, and the next entry sweeps it empty. -/

namespace WeakIdentity

namespace Registry

variable {r : Registry} {alive : Object → Bool}

section Dead

variable (dead : ∀ o ∈ r.tokens, alive o = false)
include dead

theorem filter_of_dead : (r.entries.filter fun entry => alive entry.token) = [] := by
  rw [List.filter_eq_nil_iff]
  intro entry mem
  simp [dead _ (mem_tokens mem)]

theorem live_of_dead : (r.stats alive).live = 0 := by
  rw [stats, filter_of_dead dead]
  rfl

/-- A sweep of a table with dead entries only empties it, and moves the watermark to the
threshold. -/
theorem sweep_of_dead :
    (r.sweep alive).1.registry =
      { r with
        entries := []
        watermark := r.threshold
        reclaimed := r.reclaimed + .ofNat r.size
        sweeps := r.sweeps + 1 } := by
  have least : max r.threshold (doubled 0) = r.threshold := by
    rw [← UInt64.toNat_inj, UInt64.toNat_max]
    exact Nat.max_eq_left (Nat.zero_le _)
  simp only [sweep, filter_of_dead dead, List.length_nil, least, Nat.sub_zero]

end Dead

/-- The table and the counters of a registry with a threshold after `i` objects have been created,
observed and dropped. -/
structure Churned (r : Registry) (threshold i : Nat) : Prop where
  threshold_eq : r.threshold.toNat = threshold
  watermark : r.watermark = r.threshold
  fits : r.size ≤ threshold
  total : r.size + threshold * ((i - 1) / threshold) = i
  minted : r.minted = .ofNat i
  reclaimed : r.reclaimed = .ofNat (threshold * ((i - 1) / threshold))
  sweeps : r.sweeps = .ofNat ((i - 1) / threshold)

theorem churned_ofOptions (options : Options) :
    (ofOptions options).Churned options.sweepThreshold.toNat 0 where
  threshold_eq := rfl
  watermark := rfl
  fits := Nat.zero_le _
  total := by simp [size, ofOptions]
  minted := rfl
  reclaimed := by simp [ofOptions]
  sweeps := by simp [ofOptions]

/-- The counters as they are shown. -/
theorem Churned.stats_eq {threshold i : Nat} (churned : r.Churned threshold i)
    (dead : ∀ o ∈ r.tokens, alive o = false) :
    r.stats alive =
      { entries := i - threshold * ((i - 1) / threshold)
        live := 0
        minted := .ofNat i
        reclaimed := .ofNat (threshold * ((i - 1) / threshold))
        sweeps := .ofNat ((i - 1) / threshold) } := by
  have size : i - threshold * ((i - 1) / threshold) = r.size := by
    have total := churned.total
    omega
  rw [size, ← churned.minted, ← churned.reclaimed, ← churned.sweeps, ← live_of_dead dead]
  rfl

/-- An object with an entry after an observation had one before, or is the observed object. -/
theorem mem_tokens_of_observe {address : Nat} {o object : Object}
    (mem : o ∈ (r.observe alive address object).1.registry.tokens) :
    o = object ∨ o ∈ r.tokens := by
  cases found : r.find? address with
  | some entry =>
    rw [observe_of_found found] at mem
    exact Or.inr mem
  | none =>
    rw [observe_of_unknown found] at mem
    refine (List.mem_cons.mp mem).imp_right fun old => ?_
    exact ((sublist_makeRoom alive r).map Entry.token).subset old

section Observe

variable {threshold i : Nat} (churned : r.Churned threshold i) (accepted : 0 < threshold)
  {address : Nat} (unknown : r.find? address = none) (object : Object)
include churned accepted unknown

/-- One more object, for which there is room. -/
theorem Churned.insert (room : r.size < threshold) (alive : Object → Bool) :
    (r.observe alive address object).1.registry.Churned threshold (i + 1) ∧
      (r.observe alive address object).1.registry.size = i % threshold + 1 := by
  obtain ⟨quotient, remainder⟩ := (Nat.div_mod_unique accepted).mpr ⟨churned.total, room⟩
  have lower : r.size < r.watermark.toNat := by
    rw [churned.watermark, churned.threshold_eq]
    exact room
  rw [observe_of_unknown unknown, makeRoom_of_lt lower, remainder]
  refine ⟨⟨churned.threshold_eq, churned.watermark, room, ?_, ?_, ?_, ?_⟩, rfl⟩
  · rw [Nat.add_sub_cancel, quotient]
    exact (Nat.add_right_comm _ _ _).trans (congrArg (· + 1) churned.total)
  · exact (congrArg (· + 1) churned.minted).trans (UInt64.ofNat_add i 1).symm
  · rw [Nat.add_sub_cancel, quotient]
    exact churned.reclaimed
  · rw [Nat.add_sub_cancel, quotient]
    exact churned.sweeps

/-- One more object, before which the table is swept, and is empty then. -/
theorem Churned.sweep (full : r.size = threshold) (dead : ∀ o ∈ r.tokens, alive o = false) :
    (r.observe alive address object).1.registry.Churned threshold (i + 1) ∧
      (r.observe alive address object).1.registry.size = i % threshold + 1 := by
  -- All objects so far make up whole tables, so that the next one begins another.
  have whole : threshold * ((i - 1) / threshold + 1) = i := by
    have total := churned.total
    rw [full] at total
    rw [Nat.mul_add_one, Nat.add_comm, total]
  obtain ⟨quotient, remainder⟩ :=
    (Nat.div_mod_unique accepted).mpr ⟨(Nat.zero_add _).trans whole, accepted⟩
  have upper : r.watermark.toNat ≤ r.size := by
    rw [churned.watermark, churned.threshold_eq, full]
  rw [observe_of_unknown unknown, makeRoom_of_le upper, sweep_of_dead dead, remainder]
  refine ⟨⟨churned.threshold_eq, rfl, accepted, ?_, ?_, ?_, ?_⟩, rfl⟩
  · rw [Nat.add_sub_cancel, quotient, whole]
    exact Nat.add_comm 1 i
  · exact (congrArg (· + 1) churned.minted).trans (UInt64.ofNat_add i 1).symm
  · rw [Nat.add_sub_cancel, quotient, Nat.mul_add_one, UInt64.ofNat_add, ← churned.reclaimed,
      ← full]
  · rw [Nat.add_sub_cancel, quotient]
    exact (congrArg (· + 1) churned.sweeps).trans (UInt64.ofNat_add _ 1).symm

theorem Churned.observe (dead : ∀ o ∈ r.tokens, alive o = false) :
    (r.observe alive address object).1.registry.Churned threshold (i + 1) ∧
      (r.observe alive address object).1.registry.size = i % threshold + 1 := by
  rcases Nat.lt_or_eq_of_le churned.fits with room | full
  · exact churned.insert accepted unknown object room alive
  · exact churned.sweep accepted unknown object full dead

end Observe

end Registry

end WeakIdentity
