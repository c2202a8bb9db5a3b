import Mathlib.Data.List.Nodup
import WeakIdentity.Proofs.Heap.Places

/-! What the calls of a registry do to its table: which entries are there afterwards, that no
address comes twice, and that the references taken and released make up the difference. -/

namespace WeakIdentity

/-- Where no key comes twice, an item and the items with other keys make up a list. -/
theorem perm_of_find?_key {α κ : Type} [BEq κ] [LawfulBEq κ] (key : α → κ) {items : List α}
    (distinct : (items.map key).Nodup) {k : κ} {item : α}
    (h : items.find? (fun other => key other == k) = some item) :
    (item :: items.filter fun other => key other != k).Perm items := by
  have mem := List.mem_of_find?_eq_some h
  have same : key item = k := by simpa using List.find?_some h
  have alone : items.filter (fun other => key other == k) = [item] := by
    have once : (items.filter fun other => key other == k).Nodup := (distinct.of_map key).filter _
    refine List.perm_singleton.mp
      ((List.perm_ext_iff_of_nodup once (List.nodup_singleton _)).mpr fun other => ?_)
    simp only [List.mem_filter, beq_iff_eq, List.mem_singleton]
    constructor
    · rintro ⟨there, found⟩
      exact List.inj_on_of_nodup_map distinct there mem (found.trans same.symm)
    · rintro rfl
      exact ⟨mem, same⟩
  have parts := List.filter_append_perm (fun other => key other == k) items
  rwa [alone] at parts

namespace Registry

/-- The objects of the entries, to each of which the table holds a weak reference. -/
def tokens (r : Registry) : List Object := r.entries.map Entry.token

/-- Every entry is under the address of its object, and no two entries are under one address. -/
structure Keyed (heap : Heap) (r : Registry) : Prop where
  address : ∀ entry ∈ r.entries, entry.address = heap.address entry.token
  distinct : (r.entries.map Entry.address).Nodup

theorem mem_tokens {r : Registry} {entry : Entry} (h : entry ∈ r.entries) :
    entry.token ∈ r.tokens :=
  List.mem_map_of_mem h

theorem find?_eq_some_iff {r : Registry} (distinct : (r.entries.map Entry.address).Nodup)
    {address : Nat} {entry : Entry} :
    r.find? address = some entry ↔ entry ∈ r.entries ∧ entry.address = address := by
  constructor
  · intro found
    exact ⟨List.mem_of_find?_eq_some found, by simpa using List.find?_some found⟩
  · rintro ⟨mem, rfl⟩
    cases found : r.find? entry.address with
    | none =>
      have absent := List.find?_eq_none.mp found entry mem
      simp at absent
    | some other =>
      have same : other.address = entry.address := by simpa using List.find?_some found
      rw [List.inj_on_of_nodup_map distinct (List.mem_of_find?_eq_some found) mem same]

theorem find?_eq_none_iff {r : Registry} {address : Nat} :
    r.find? address = none ↔ ∀ entry ∈ r.entries, entry.address ≠ address := by
  simp [find?]

/-- A table with some of the entries of another one. -/
theorem Keyed.sublist {heap : Heap} {r r' : Registry} (keyed : r.Keyed heap)
    (h : r'.entries.Sublist r.entries) : r'.Keyed heap :=
  ⟨fun entry mem => keyed.address entry (h.subset mem),
    keyed.distinct.sublist (h.map Entry.address)⟩

theorem Keyed.congr {heap heap' : Heap} {r : Registry} (keyed : r.Keyed heap)
    (h : ∀ object ∈ r.tokens, heap'.address object = heap.address object) : r.Keyed heap' :=
  ⟨fun entry mem => (keyed.address entry mem).trans (h entry.token (mem_tokens mem)).symm,
    keyed.distinct⟩

/-! ### Sweeps -/

section Sweep

variable (alive : Object → Bool) (r : Registry)

@[simp] theorem mem_sweep {entry : Entry} :
    entry ∈ (r.sweep alive).1.registry.entries ↔ entry ∈ r.entries ∧ alive entry.token = true := by
  simp [sweep]

@[simp] theorem minted_sweep : (r.sweep alive).1.registry.minted = r.minted := rfl

@[simp] theorem taken_sweep : (r.sweep alive).1.taken = [] := rfl

theorem sublist_sweep : (r.sweep alive).1.registry.entries.Sublist r.entries :=
  List.filter_sublist

theorem mem_makeRoom_of_alive {entry : Entry} (h : alive entry.token = true) :
    entry ∈ (r.makeRoom alive).registry.entries ↔ entry ∈ r.entries := by
  unfold makeRoom
  split
  · rw [mem_sweep]
    exact and_iff_left h
  · rfl

theorem sublist_makeRoom : (r.makeRoom alive).registry.entries.Sublist r.entries := by
  unfold makeRoom
  split
  · exact sublist_sweep alive r
  · exact List.Sublist.refl _

@[simp] theorem minted_makeRoom : (r.makeRoom alive).registry.minted = r.minted := by
  unfold makeRoom
  split <;> rfl

@[simp] theorem taken_makeRoom : (r.makeRoom alive).taken = [] := by
  unfold makeRoom
  split <;> rfl

end Sweep

/-! ### Calls -/

theorem observe_of_found {r : Registry} {address : Nat} {entry : Entry}
    (h : r.find? address = some entry) (alive : Object → Bool) (object : Object) :
    r.observe alive address object = ({ registry := r }, entry.id) := by
  simp [observe, h]

theorem observe_of_unknown {r : Registry} {address : Nat} (h : r.find? address = none)
    (alive : Object → Bool) (object : Object) :
    r.observe alive address object =
      ({ registry :=
          { (r.makeRoom alive).registry with
            entries := ⟨address, ⟨r.minted⟩, object⟩ :: (r.makeRoom alive).registry.entries
            minted := r.minted + 1 }
         taken := [object]
         released := (r.makeRoom alive).released
         events := (r.makeRoom alive).events ++
          [.assign ⟨r.minted⟩ ((r.makeRoom alive).registry.entries.length + 1)] },
        ⟨r.minted⟩) := by
  simp [observe, h]

theorem eq_of_mem_taken_observe {r : Registry} {alive : Object → Bool} {address : Nat}
    {object other : Object} (h : other ∈ (r.observe alive address object).1.taken) :
    other = object := by
  cases found : r.find? address with
  | some entry => simp [observe_of_found found] at h
  | none => simpa [observe_of_unknown found] using h

theorem Keyed.observe {heap : Heap} {r : Registry} (keyed : r.Keyed heap) (alive : Object → Bool)
    (object : Object) : (r.observe alive (heap.address object) object).1.registry.Keyed heap := by
  cases h : r.find? (heap.address object) with
  | some entry =>
    rw [observe_of_found h]
    exact keyed
  | none =>
    have kept := sublist_makeRoom alive r
    have absent := find?_eq_none_iff.mp h
    have room := keyed.sublist kept
    rw [observe_of_unknown h]
    constructor
    · intro entry mem
      rcases List.mem_cons.mp mem with rfl | old
      · rfl
      · exact room.address entry old
    · refine List.nodup_cons.mpr ⟨fun mem => ?_, room.distinct⟩
      obtain ⟨entry, old, same⟩ := List.mem_map.mp mem
      exact absent entry (kept.subset old) same

theorem forget_of_unknown {r : Registry} {address : Nat} (h : r.find? address = none) :
    r.forget address = ({ registry := r }, none) := by
  simp [forget, h]

theorem forget_of_found {r : Registry} {address : Nat} {entry : Entry}
    (h : r.find? address = some entry) :
    r.forget address =
      ({ registry := { r with entries := r.entries.filter fun other => other.address != address }
         released := [entry.token]
         events := [.forget entry.id] },
        some entry.id) := by
  simp [forget, h]

@[simp] theorem taken_forget (r : Registry) (address : Nat) : (r.forget address).1.taken = [] := by
  unfold forget
  split <;> rfl

theorem Keyed.forget {heap : Heap} {r : Registry} (keyed : r.Keyed heap) (address : Nat) :
    (r.forget address).1.registry.Keyed heap := by
  cases h : r.find? address with
  | none =>
    rw [forget_of_unknown h]
    exact keyed
  | some entry =>
    rw [forget_of_found h]
    exact keyed.sublist List.filter_sublist

/-! ### References -/

end Registry

/-- A change of a registry takes and releases just the references by which the tables differ. -/
def Change.Balances (change : Change) (r : Registry) : Prop :=
  ∀ object, change.registry.tokens.count object + change.released.count object =
    r.tokens.count object + change.taken.count object

namespace Registry

theorem balances_same (r : Registry) (events : List Event) :
    Change.Balances { registry := r, events } r := fun _ => rfl

theorem balances_sweep (alive : Object → Bool) (r : Registry) :
    (r.sweep alive).1.Balances r := by
  intro object
  have parts := (List.filter_append_perm (fun entry => alive entry.token) r.entries).map Entry.token
  have counts := parts.count_eq object
  simpa [sweep, tokens, List.map_append, List.count_append] using counts

theorem balances_makeRoom (alive : Object → Bool) (r : Registry) :
    (r.makeRoom alive).Balances r := by
  unfold makeRoom
  split
  · exact balances_sweep alive r
  · exact balances_same r []

theorem balances_close (r : Registry) : r.close.Balances r := by
  intro object
  simp [close, tokens]

theorem balances_observe (alive : Object → Bool) (address : Nat) (object : Object)
    (r : Registry) : (r.observe alive address object).1.Balances r := by
  cases h : r.find? address with
  | some entry =>
    rw [observe_of_found h]
    exact balances_same r []
  | none =>
    intro other
    have room := balances_makeRoom alive r other
    rw [taken_makeRoom, List.count_nil] at room
    rw [observe_of_unknown h]
    simp only [tokens, List.map_cons, List.count_cons, List.count_nil] at room ⊢
    omega

theorem balances_forget {r : Registry} (distinct : (r.entries.map Entry.address).Nodup)
    (address : Nat) : (r.forget address).1.Balances r := by
  cases h : r.find? address with
  | none =>
    rw [forget_of_unknown h]
    exact balances_same r []
  | some entry =>
    intro object
    have parts := perm_of_find?_key Entry.address distinct h
    have counts := (parts.map Entry.token).count_eq object
    rw [forget_of_found h]
    simp only [tokens, List.map_cons, List.count_cons, List.count_nil] at counts ⊢
    omega

end Registry

end WeakIdentity
