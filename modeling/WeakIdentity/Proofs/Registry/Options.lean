import Mathlib.Algebra.Order.Ring.Nat
import WeakIdentity.Registry.Basic

/-! What registries are made of options: which options are refused, and for which of the others the
table cannot be allocated. -/

namespace WeakIdentity

variable {alloc : Allocator} {options : Options}

theorem Options.validate_eq_ok_iff : options.validate = .ok () ↔ options.sweepThreshold ≠ 0 := by
  by_cases zero : options.sweepThreshold = 0 <;> simp [validate, zero]

namespace Registry

theorem withOptions_eq_ok_iff {registry : Registry} :
    withOptions alloc options = some (.ok registry) ↔
      options.sweepThreshold ≠ 0 ∧ alloc.fits options.initialCapacity = true ∧
        registry = .ofOptions options := by
  by_cases zero : options.sweepThreshold = 0
  · simp [withOptions, Options.validate, zero]
  · simp [withOptions, Options.validate, zero, @eq_comm _ registry]

theorem withOptions_eq_error_iff {fault : Fault} :
    withOptions alloc options = some (.error fault) ↔
      options.sweepThreshold = 0 ∧
        fault = .invalidOption "sweep_threshold" "must be greater than zero" := by
  by_cases zero : options.sweepThreshold = 0
  · simp [withOptions, Options.validate, zero, eq_comm]
  · simp [withOptions, Options.validate, zero]

theorem withOptions_eq_none_iff :
    withOptions alloc options = none ↔
      options.validate = .ok () ∧ alloc.fits options.initialCapacity = false := by
  rw [Options.validate_eq_ok_iff]
  by_cases zero : options.sweepThreshold = 0
  · simp [withOptions, Options.validate, zero]
  · simp [withOptions, Options.validate, zero]

/-- Where options that are valid are enough for a registry. -/
theorem withOptions_of_valid_iff :
    (options.validate = .ok () → ∃ registry, withOptions alloc options = some (.ok registry)) ↔
      options.sweepThreshold = 0 ∨ alloc.fits options.initialCapacity = true := by
  simp only [withOptions_eq_ok_iff, Options.validate_eq_ok_iff]
  constructor
  · intro made
    by_cases threshold : options.sweepThreshold = 0
    · exact Or.inl threshold
    · obtain ⟨registry, -, fits, -⟩ := made threshold
      exact Or.inr fits
  · intro possible threshold
    exact ⟨_, threshold, possible.resolve_left threshold, rfl⟩

/-- A capacity for which the entries alone take 2^63 bytes fits with no allocator. -/
theorem withOptions_eq_none (valid : options.validate = .ok ())
    (large : 2 ^ 63 ≤ 32 * options.initialCapacity.toNat) (alloc : Allocator) :
    withOptions alloc options = none := by
  refine withOptions_eq_none_iff.mpr ⟨valid, ?_⟩
  rw [← Bool.not_eq_true]
  intro fits
  exact Nat.not_le.mpr (alloc.fits_lt _ fits) large

theorem withOptions_default (alloc : Allocator) :
    withOptions alloc {} = some (.ok (.ofOptions {})) :=
  withOptions_eq_ok_iff.mpr ⟨by decide, alloc.fits_zero, rfl⟩

end Registry

end WeakIdentity
