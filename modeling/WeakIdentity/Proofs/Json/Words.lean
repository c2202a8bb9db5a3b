import WeakIdentity.DecodeError

/-! Numbers of 64 bits in JSON: just the integers from 0 to 2^64 - 1 are read as such. A negative
integer of 64 bits is a case of its own, and every other number is read as a fraction. -/

namespace WeakIdentity

/-- Why a value is no number of 64 bits. -/
inductive Misfit (expected : Expected) : Json.Value → DecodeError → Prop
  /-- An integer from -2^63 to -1. -/
  | negative {magnitude : Nat} (positive : 0 < magnitude)
      (bound : magnitude ≤ 0x8000000000000000) :
      Misfit expected (.number (.integer true magnitude)) (.negative (-magnitude) expected)
  /-- A number with a point or an exponent, negative zero, or an integer that is too large. -/
  | fraction {numeral : Json.Numeral} (natural : ∀ n : UInt64, numeral ≠ .integer false n.toNat)
      (negative : ∀ magnitude, 0 < magnitude → magnitude ≤ 0x8000000000000000 →
        numeral ≠ .integer true magnitude) :
      Misfit expected (.number numeral) (.invalidType (.floating numeral) expected)
  /-- A value that is no number. -/
  | other {value : Json.Value} (kind : ∀ numeral, value ≠ .number numeral) :
      Misfit expected value (.invalidType (.ofValue value) expected)

open Json (Numeral)

/-- What a literal denotes depends on its bounds only. -/
theorem reading_cases (numeral : Numeral) :
    (∃ n : UInt64, numeral = .integer false n.toNat ∧ numeral.reading = .natural n) ∨
    (∃ magnitude, 0 < magnitude ∧ magnitude ≤ 0x8000000000000000 ∧
      numeral = .integer true magnitude ∧ numeral.reading = .negative magnitude) ∨
    ((∀ n : UInt64, numeral ≠ .integer false n.toNat) ∧
      (∀ magnitude, 0 < magnitude → magnitude ≤ 0x8000000000000000 →
        numeral ≠ .integer true magnitude) ∧
      numeral.reading = .floating) := by
  cases numeral with
  | decimal negative digits exponent => exact Or.inr (Or.inr ⟨by simp, by simp, rfl⟩)
  | integer negative n =>
    cases negative with
    | false =>
      by_cases bound : n < UInt64.size
      · refine Or.inl ⟨.ofNat n, ?_, if_pos bound⟩
        rw [UInt64.toNat_ofNat_of_lt' bound]
      · refine Or.inr (Or.inr ⟨fun word same => bound ?_, by simp, if_neg bound⟩)
        rw [(Numeral.integer.inj same).2]
        exact word.toNat_lt_size
    | true =>
      have half : 2 * n ≤ UInt64.size ↔ n ≤ 0x8000000000000000 := by
        simp only [UInt64.size]
        omega
      by_cases bound : 0 < n ∧ 2 * n ≤ UInt64.size
      · exact Or.inr (Or.inl ⟨n, bound.1, half.mp bound.2, rfl, if_pos bound⟩)
      · refine Or.inr (Or.inr ⟨by simp, fun magnitude positive fits same => bound ?_, if_neg bound⟩)
        rw [(Numeral.integer.inj same).2]
        simp only [UInt64.size]
        omega

theorem decodeWord_ofNat (expected : Expected) (n : UInt64) :
    decodeWord expected (.ofNat n.toNat) = .ok n := by
  have bound := n.toNat_lt_size
  simp [decodeWord, Json.Value.ofNat, Numeral.reading, bound]

theorem decodeWord_cases (expected : Expected) (value : Json.Value) :
    (∃ n : UInt64, value = .ofNat n.toNat) ∨ ∃ e, Misfit expected value e := by
  by_cases number : ∃ numeral, value = .number numeral
  · obtain ⟨numeral, rfl⟩ := number
    obtain ⟨n, rfl, -⟩ | ⟨magnitude, positive, bound, rfl, -⟩ | ⟨natural, negative, -⟩ :=
      reading_cases numeral
    · exact Or.inl ⟨n, rfl⟩
    · exact Or.inr ⟨_, .negative positive bound⟩
    · exact Or.inr ⟨_, .fraction natural negative⟩
  · exact Or.inr ⟨_, .other fun numeral same => number ⟨numeral, same⟩⟩

theorem Misfit.decodeWord {expected : Expected} {value : Json.Value} {e : DecodeError}
    (misfit : Misfit expected value e) : decodeWord expected value = .error e := by
  cases misfit with
  | @negative magnitude positive bound =>
    have fits : 0 < magnitude ∧ 2 * magnitude ≤ UInt64.size := by
      simp only [UInt64.size]
      omega
    simp [WeakIdentity.decodeWord, Numeral.reading, fits]
  | @fraction numeral natural negative =>
    obtain ⟨n, same, -⟩ | ⟨magnitude, positive, bound, same, -⟩ | ⟨-, -, reading⟩ :=
      reading_cases numeral
    · exact absurd same (natural n)
    · exact absurd same (negative magnitude positive bound)
    · simp [WeakIdentity.decodeWord, reading]
  | other kind =>
    cases value with
    | number numeral => exact absurd rfl (kind numeral)
    | _ => rfl

/-- Just the integers from 0 to 2^64 - 1 are read. -/
theorem decodeWord_eq_ok_iff {expected : Expected} {value : Json.Value} {n : UInt64} :
    decodeWord expected value = .ok n ↔ value = .ofNat n.toNat := by
  constructor
  · intro read
    obtain ⟨m, rfl⟩ | ⟨e, misfit⟩ := decodeWord_cases expected value
    · rw [decodeWord_ofNat] at read
      rw [Except.ok.inj read]
    · rw [misfit.decodeWord] at read
      cases read
  · rintro rfl
    exact decodeWord_ofNat expected n

end WeakIdentity
