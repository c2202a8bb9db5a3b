import Mathlib.Algebra.BigOperators.Group.List.Basic
import Mathlib.Algebra.Order.Ring.Nat
import Mathlib.Data.Finset.Card
import Mathlib.Data.List.Induction
import WeakIdentity.Tally

/-! Tallies count: each recorded location has one row, with the number of times it was recorded. -/

namespace WeakIdentity.Tally

/-- The locations that have a row. -/
def keys (tally : Tally) : List Location := tally.rows.map Prod.fst

theorem mem_recordIn {x y : Location} {rows : List (Location × Nat)} :
    x ∈ (recordIn y rows).map Prod.fst ↔ x = y ∨ x ∈ rows.map Prod.fst := by
  fun_induction recordIn y rows with
  | case1 => simp
  | case2 count rest => simp
  | case3 key count rest other ih =>
    rw [List.map_cons, List.mem_cons, ih, List.map_cons, List.mem_cons, or_left_comm]

theorem nodup_recordIn {rows : List (Location × Nat)} (distinct : (rows.map Prod.fst).Nodup)
    (x : Location) : ((recordIn x rows).map Prod.fst).Nodup := by
  fun_induction recordIn x rows with
  | case1 => simp
  | case2 count rest => exact distinct
  | case3 key count rest other ih =>
    rw [List.map_cons, List.nodup_cons] at distinct ⊢
    exact ⟨fun mem => (mem_recordIn.mp mem).elim other distinct.1, ih distinct.2⟩

theorem sum_recordIn (x : Location) (rows : List (Location × Nat)) :
    ((recordIn x rows).map Prod.snd).sum = (rows.map Prod.snd).sum + 1 := by
  fun_induction recordIn x rows with
  | case1 => rfl
  | case2 count rest => simp only [List.map_cons, List.sum_cons]; omega
  | case3 key count rest other ih => simp only [List.map_cons, List.sum_cons, ih]; omega

theorem count_record (tally : Tally) (x y : Location) :
    (tally.record x).count y = tally.count y + if x = y then 1 else 0 := by
  obtain ⟨rows⟩ := tally
  unfold record count
  dsimp only
  fun_induction recordIn x rows with
  | case1 => by_cases same : x = y <;> simp [same]
  | case2 count rest => by_cases same : x = y <;> simp [same]
  | case3 key count rest other ih =>
    by_cases same : key = y
    · subst same
      simp [Ne.symm other]
    · simpa [same] using ih

theorem ofList_concat (xs : List Location) (x : Location) :
    ofList (xs ++ [x]) = (ofList xs).record x := by
  rw [ofList, List.foldl_append]
  rfl

theorem count_ofList (xs : List Location) (x : Location) : (ofList xs).count x = xs.count x := by
  induction xs using List.reverseRecOn with
  | nil => rfl
  | append_singleton xs y ih =>
    rw [ofList_concat, count_record, ih, List.count_append, List.count_singleton]
    simp only [beq_iff_eq]

theorem nodup_keys (xs : List Location) : (ofList xs).keys.Nodup := by
  induction xs using List.reverseRecOn with
  | nil => exact List.nodup_nil
  | append_singleton xs y ih =>
    rw [ofList_concat]
    exact nodup_recordIn ih y

theorem mem_keys {xs : List Location} {x : Location} : x ∈ (ofList xs).keys ↔ x ∈ xs := by
  induction xs using List.reverseRecOn with
  | nil => rfl
  | append_singleton xs y ih =>
    rw [ofList_concat, List.mem_append, List.mem_singleton, ← ih, or_comm]
    exact mem_recordIn

theorem sum_counts (xs : List Location) : ((ofList xs).rows.map Prod.snd).sum = xs.length := by
  induction xs using List.reverseRecOn with
  | nil => rfl
  | append_singleton xs y ih =>
    rw [ofList_concat, List.length_append, ← ih]
    exact sum_recordIn y _

/-- There are as many rows as different locations. -/
theorem size_ofList (xs : List Location) : (ofList xs).size = xs.toFinset.card := by
  have same : xs.toFinset = (ofList xs).keys.toFinset := by
    ext x
    rw [List.mem_toFinset, List.mem_toFinset, mem_keys]
  rw [same, List.toFinset_card_of_nodup (nodup_keys xs), keys, List.length_map, size]

end WeakIdentity.Tally
