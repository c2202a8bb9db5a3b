/-! Bindings: values under names, each name once. -/

namespace WeakIdentity

/-- Values under names, the newest binding first. -/
structure Bindings (κ α : Type) where
  pairs : List (κ × α) := []
  distinct : (pairs.map Prod.fst).Nodup := by exact .nil

namespace Bindings

variable {κ α : Type} [DecidableEq κ]

def get? (b : Bindings κ α) (name : κ) : Option α :=
  (b.pairs.find? fun pair => pair.1 = name).map Prod.snd

def erase (b : Bindings κ α) (name : κ) : Bindings κ α where
  pairs := b.pairs.filter fun pair => pair.1 ≠ name
  distinct := b.distinct.sublist (List.filter_sublist.map Prod.fst)

theorem name_not_mem_erase (b : Bindings κ α) (name : κ) :
    name ∉ (b.erase name).pairs.map Prod.fst := by
  simp [erase]

/-- The bindings with a value under a name, in the place of what was there. -/
def insert (b : Bindings κ α) (name : κ) (value : α) : Bindings κ α where
  pairs := (name, value) :: (b.erase name).pairs
  distinct := List.nodup_cons.mpr ⟨b.name_not_mem_erase name, (b.erase name).distinct⟩

def values (b : Bindings κ α) : List α := b.pairs.map Prod.snd

@[simp] theorem get?_erase_self (b : Bindings κ α) (name : κ) :
    (b.erase name).get? name = none := by
  simp [get?, erase]

theorem get?_erase_of_ne (b : Bindings κ α) {name other : κ} (h : other ≠ name) :
    (b.erase name).get? other = b.get? other := by
  have keeps : ∀ pair : κ × α, (pair.1 ≠ name ∧ pair.1 = other) ↔ pair.1 = other := fun pair =>
    ⟨fun both => both.2, fun found => ⟨found ▸ h, found⟩⟩
  simp only [get?, erase, List.find?_filter, decide_eq_true_eq, keeps]

@[simp] theorem get?_insert_self (b : Bindings κ α) (name : κ) (value : α) :
    (b.insert name value).get? name = some value := by
  simp [get?, insert]

theorem get?_insert_of_ne (b : Bindings κ α) {name other : κ} (value : α) (h : other ≠ name) :
    (b.insert name value).get? other = b.get? other := by
  rw [← get?_erase_of_ne b h]
  simp [get?, insert, h.symm]

end Bindings

end WeakIdentity
