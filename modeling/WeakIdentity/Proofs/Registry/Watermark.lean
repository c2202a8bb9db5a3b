import Mathlib.Algebra.BigOperators.Group.List.Basic
import WeakIdentity.Proofs.Registry.Table

/-! The watermark: a sweep moves it to twice the entries that it leaves, but not below the
threshold, so that a table that has grown to it again has grown by as many entries as it had. -/

namespace WeakIdentity

namespace Event

/-- Whether an event reports a sweep. -/
def isSweep : Event → Bool
  | .sweep .. => true
  | _ => false

/-- How many entries the sweep that an event reports went through. -/
def visited : Event → Nat
  | .sweep reclaimed live _ => reclaimed + live
  | _ => 0

/-- The id that an event reports as assigned. -/
def assigned? : Event → Option ObjectId
  | .assign id _ => some id
  | _ => none

end Event

namespace Registry

theorem toNat_doubled {k : Nat} (small : k < 2 ^ 63) : (doubled k).toNat = 2 * k := by
  have least : min (2 * k) (UInt64.size - 1) = 2 * k := by
    simp only [UInt64.size]
    omega
  rw [doubled, least, UInt64.toNat_ofNat_of_lt' (by simp only [UInt64.size]; omega)]

section Sweep

variable (alive : Object → Bool) (r : Registry)

theorem live_le_size : (r.stats alive).live ≤ r.size := List.length_filter_le _ _

theorem size_sweep : (r.sweep alive).1.registry.size = (r.stats alive).live := rfl

theorem live_sweep : ((r.sweep alive).1.registry.stats alive).live = (r.stats alive).live := by
  simp [sweep, stats, List.filter_filter]

theorem watermark_sweep (small : r.size < 2 ^ 63) :
    (r.sweep alive).1.registry.watermark.toNat =
      max r.threshold.toNat (2 * (r.stats alive).live) := by
  have fewer := live_le_size alive r
  have twice := toNat_doubled (k := (r.stats alive).live) (by omega)
  simp only [sweep, UInt64.toNat_max]
  rw [← twice]
  rfl

/-- A sweep goes through the whole table. -/
theorem visited_sweep : ((r.sweep alive).1.events.map Event.visited).sum = r.size := by
  have fewer := live_le_size alive r
  simp only [sweep, List.map_cons, List.map_nil, List.sum_singleton, Event.visited]
  exact Nat.sub_add_cancel fewer

/-- After a sweep there is room for one entry more, as long as the entries can be counted. -/
theorem room_sweep (few : (r.stats alive).live + 1 < 2 ^ 64) (accepted : 0 < r.threshold.toNat) :
    (r.sweep alive).1.registry.size < (r.sweep alive).1.registry.watermark.toNat := by
  have twice : (doubled (r.stats alive).live).toNat =
      min (2 * (r.stats alive).live) (UInt64.size - 1) := by
    rw [doubled, UInt64.toNat_ofNat_of_lt' (by simp only [UInt64.size]; omega)]
  have watermark : (r.sweep alive).1.registry.watermark.toNat =
      max r.threshold.toNat (doubled (r.stats alive).live).toNat := UInt64.toNat_max _ _
  rw [watermark, twice, size_sweep]
  simp only [UInt64.size]
  omega

theorem size_lt_watermark_sweep (small : r.size < 2 ^ 63) (accepted : 0 < r.threshold.toNat) :
    (r.sweep alive).1.registry.size < (r.sweep alive).1.registry.watermark.toNat := by
  have fewer := live_le_size alive r
  exact room_sweep alive r (by omega) accepted

end Sweep

theorem makeRoom_of_lt {r : Registry} (room : r.size < r.watermark.toNat) (alive : Object → Bool) :
    r.makeRoom alive = { registry := r } := if_neg (Nat.not_le.mpr room)

theorem makeRoom_of_le {r : Registry} (full : r.watermark.toNat ≤ r.size) (alive : Object → Bool) :
    r.makeRoom alive = (r.sweep alive).1 := if_pos full

theorem size_forget_le (r : Registry) (address : Nat) :
    (r.forget address).1.registry.size ≤ r.size := by
  cases found : r.find? address with
  | none => rw [forget_of_unknown found]
  | some entry =>
    rw [forget_of_found found]
    exact List.length_filter_le _ _

/-! ### The cost of sweeps -/

/-- What the entries since the last sweep have paid for the next one. -/
def credit (r : Registry) : Nat := 2 * r.size - r.watermark.toNat

theorem credit_sweep (alive : Object → Bool) {r : Registry} (small : r.size < 2 ^ 63) :
    (r.sweep alive).1.registry.credit = 0 := by
  rw [credit, watermark_sweep alive r small, size_sweep]
  omega

section Insertion

variable {r : Registry} {address : Nat} (unknown : r.find? address = none) (alive : Object → Bool)
  (object : Object)
include unknown

theorem size_observe :
    (r.observe alive address object).1.registry.size = (r.makeRoom alive).registry.size + 1 := by
  rw [observe_of_unknown unknown]
  rfl

theorem watermark_observe :
    (r.observe alive address object).1.registry.watermark =
      (r.makeRoom alive).registry.watermark := by
  rw [observe_of_unknown unknown]

theorem credit_observe_le :
    (r.observe alive address object).1.registry.credit ≤
      (r.makeRoom alive).registry.credit + 2 := by
  rw [credit, credit, size_observe unknown, watermark_observe unknown]
  omega

theorem visited_observe :
    ((r.observe alive address object).1.events.map Event.visited).sum =
      ((r.makeRoom alive).events.map Event.visited).sum := by
  rw [observe_of_unknown unknown]
  simp [Event.visited]

theorem assigned_observe :
    (r.observe alive address object).1.events.filterMap Event.assigned? = [⟨r.minted⟩] := by
  have silent : (r.makeRoom alive).events.filterMap Event.assigned? = [] := by
    unfold makeRoom
    split <;> rfl
  rw [observe_of_unknown unknown, List.filterMap_append, silent]
  rfl

end Insertion

/-- An insertion pays two, which is enough for the sweep that it may bring. -/
theorem visited_observe_le (alive : Object → Bool) {r : Registry} (small : r.size < 2 ^ 63)
    (address : Nat) (object : Object) :
    ((r.observe alive address object).1.events.map Event.visited).sum +
        (r.observe alive address object).1.registry.credit ≤
      2 * ((r.observe alive address object).1.events.filterMap Event.assigned?).length +
        r.credit := by
  cases found : r.find? address with
  | some entry => simp [observe_of_found found]
  | none =>
    have inserted := credit_observe_le found alive object
    rw [visited_observe found, assigned_observe found]
    by_cases full : r.watermark.toNat ≤ r.size
    · have paid := credit_sweep alive small
      have visited := visited_sweep alive r
      rw [makeRoom_of_le full] at inserted ⊢
      -- A full table has a credit of at least its size, which is what the sweep goes through.
      have saved : r.size ≤ r.credit := by
        unfold credit
        omega
      simp only [List.length_singleton]
      omega
    · rw [makeRoom_of_lt (Nat.not_le.mp full)] at inserted ⊢
      simp only [List.map_nil, List.sum_nil, List.length_singleton] at inserted ⊢
      omega

end Registry

end WeakIdentity
