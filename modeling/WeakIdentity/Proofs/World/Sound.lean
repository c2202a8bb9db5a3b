import WeakIdentity.Proofs.Registry.Table

/-! The invariant of heap and registries: every count is the number of references there are, every
entry reserves the block whose address it is under, and every registry object has a number of its
own. References that are held outside the heap are given as two multisets. -/

namespace WeakIdentity

namespace World

/-- The number of entries for an object in all tables. -/
def tokenCount (w : World) (object : Object) : Nat :=
  (w.registries.toList.map fun r => r.tokens.count object).sum

/-- Counts and addresses are right, for the given strong and weak references from outside. -/
structure Counted (w : World) (strong weak : Multiset Object) : Prop where
  strong_eq : ∀ o, w.heap.strongCount o = strong.count o + w.heap.linkCount o
  weak_eq : ∀ o, w.heap.weakRefs o = weak.count o + w.tokenCount o + w.heap.sharedRef o
  apart : w.heap.Apart
  keyed : ∀ n, (w.registry n).Keyed w.heap

/-- Registry objects have different numbers, none of them that of the process-wide registry. -/
structure Numbered (w : World) : Prop where
  bounds : ∀ o n, w.registryNumber? o = some n → n ≠ processWide ∧ n < w.registries.size
  unique : ∀ o p n, w.registryNumber? o = some n → w.registryNumber? p = some n → o = p
  process : processWide < w.registries.size

/-- The invariant of a world with the given strong and weak references from outside. -/
structure Sound (w : World) (strong weak : Multiset Object) : Prop where
  counted : w.Counted strong weak
  numbered : w.Numbered

/-- A registry can be called as long as its object lives; the process-wide one always can. -/
def Open (w : World) (number : Nat) : Prop :=
  number = processWide ∨ ∃ o, w.heap.isLive o = true ∧ w.registryNumber? o = some number

/-! ### Reading tables -/

theorem registryNumber?_eq_some {w : World} {object : Object} {number : Nat} :
    w.registryNumber? object = some number ↔
      w.heap.content? object = some (.registry number) := by
  unfold registryNumber? Heap.content?
  split
  · next found h => simp [h]
  · next h =>
    constructor
    · intro impossible
      simp at impossible
    · intro found
      exact absurd found (h number)

theorem registryNumber?_congr {v w : World} {object : Object}
    (h : w.heap.content? object = v.heap.content? object) :
    w.registryNumber? object = v.registryNumber? object := by
  unfold registryNumber?
  unfold Heap.content? at h
  rw [h]

theorem refNumber?_of_registryNumber? {v w : World} {ref : RegistryRef}
    (h : ∀ object, w.registryNumber? object = v.registryNumber? object) :
    w.refNumber? ref = v.refNumber? ref := by
  cases ref with
  | processWide => rfl
  | shared object => exact h object

theorem refNumber?_congr {v w : World} {ref : RegistryRef}
    (h : ∀ object, w.heap.content? object = v.heap.content? object) :
    w.refNumber? ref = v.refNumber? ref :=
  refNumber?_of_registryNumber? fun object => registryNumber?_congr (h object)

/-- A lookup sees the object of a handle and not its static type. -/
theorem idOf_eq (w : World) (number : Nat) (handle : Handle) :
    w.idOf number handle = (w.registry number).idOf (w.heap.address handle.object) := rfl

theorem registry_eq_getD (w : World) (number : Nat) :
    w.registry number = w.registries[number]?.getD (.ofOptions {}) := by
  simp [registry]

theorem registry_of_size_le {w : World} {number : Nat} (h : w.registries.size ≤ number) :
    w.registry number = .ofOptions {} := by
  rw [registry_eq_getD, Array.getElem?_eq_none h]
  rfl

theorem getElem?_registry {w : World} {number : Nat} (h : number < w.registries.size) :
    w.registries[number]? = some (w.registry number) := by
  rw [registry_eq_getD, Array.getElem?_eq_getElem h]
  rfl

theorem registry_mem {w : World} {number : Nat} (h : number < w.registries.size) :
    w.registry number ∈ w.registries.toList := by
  have found := getElem?_registry h
  exact Array.mem_toList_iff.mpr (Array.mem_of_getElem? found)

theorem tokenCount_pos {w : World} {number : Nat} {entry : Entry}
    (h : entry ∈ (w.registry number).entries) : 0 < w.tokenCount entry.token := by
  have bound : number < w.registries.size := by
    by_contra out
    rw [registry_of_size_le (by omega)] at h
    simp [Registry.ofOptions] at h
  have one : 0 < (w.registry number).tokens.count entry.token :=
    List.count_pos_iff.mpr (Registry.mem_tokens h)
  exact List.sum_pos_iff_exists_pos_nat.mpr
    ⟨_, List.mem_map.mpr ⟨w.registry number, registry_mem bound, rfl⟩, one⟩

/-! ### Consequences of the invariant -/

namespace Counted

variable {w : World} {strong weak : Multiset Object} (counted : w.Counted strong weak)
include counted

theorem live_of_mem {o : Object} (h : o ∈ strong) : w.heap.isLive o = true := by
  have count := Multiset.count_pos.mpr h
  rw [Heap.isLive_iff, counted.strong_eq]
  omega

theorem reserved_of_live {o : Object} (h : w.heap.isLive o = true) : 0 < w.heap.weakRefs o := by
  rw [counted.weak_eq, Heap.sharedRef, if_pos h]
  omega

theorem reserved_of_mem {o : Object} (h : o ∈ weak) : 0 < w.heap.weakRefs o := by
  have count := Multiset.count_pos.mpr h
  rw [counted.weak_eq]
  omega

/-- An entry reserves its object's block. -/
theorem token_reserved {n : Nat} {entry : Entry} (h : entry ∈ (w.registry n).entries) :
    0 < w.heap.weakRefs entry.token := by
  have count := tokenCount_pos h
  rw [counted.weak_eq]
  omega

/-- An entry under the address of a reserved block is the entry of its object. -/
theorem token_of_address {n : Nat} {entry : Entry} (h : entry ∈ (w.registry n).entries)
    {o : Object} (reserved : 0 < w.heap.weakRefs o) (same : entry.address = w.heap.address o) :
    entry.token = o := by
  refine counted.apart.eq_of_address (counted.token_reserved h) reserved ?_
  rw [← same, (counted.keyed n).address entry h]

/-- The table finds the entry of a reserved object, if there is one. -/
theorem find?_eq_some {n : Nat} {o : Object} (reserved : 0 < w.heap.weakRefs o) {entry : Entry} :
    (w.registry n).find? (w.heap.address o) = some entry ↔
      entry ∈ (w.registry n).entries ∧ entry.token = o := by
  rw [Registry.find?_eq_some_iff (counted.keyed n).distinct]
  constructor
  · rintro ⟨mem, same⟩
    exact ⟨mem, counted.token_of_address mem reserved same⟩
  · rintro ⟨mem, rfl⟩
    exact ⟨mem, (counted.keyed n).address entry mem⟩

theorem idOf_eq_some {n : Nat} {o : Object} (reserved : 0 < w.heap.weakRefs o) {id : ObjectId} :
    w.idOf n o = some id ↔ ∃ entry ∈ (w.registry n).entries, entry.token = o ∧ entry.id = id := by
  simp only [idOf_eq, Registry.idOf, Option.map_eq_some_iff, counted.find?_eq_some reserved]
  constructor
  · rintro ⟨entry, ⟨mem, token⟩, same⟩
    exact ⟨entry, mem, token, same⟩
  · rintro ⟨entry, mem, token, same⟩
    exact ⟨entry, ⟨mem, token⟩, same⟩

theorem idOf_eq_none {n : Nat} {o : Object} (reserved : 0 < w.heap.weakRefs o) :
    w.idOf n o = none ↔ o ∉ (w.registry n).tokens := by
  rw [Option.eq_none_iff_forall_ne_some]
  constructor
  · intro unknown mem
    obtain ⟨entry, there, token⟩ := List.mem_map.mp mem
    exact unknown entry.id ((counted.idOf_eq_some reserved).mpr ⟨entry, there, token, rfl⟩)
  · intro missing id found
    obtain ⟨entry, there, rfl, -⟩ := (counted.idOf_eq_some reserved).mp found
    exact missing (Registry.mem_tokens there)

/-- The counts and the places say all about a heap that the invariant needs. -/
theorem reheap {heap : Heap} {strong' weak' : Multiset Object}
    (hs : ∀ o, heap.strongCount o = strong'.count o + heap.linkCount o)
    (hw : ∀ o, heap.weakRefs o = weak'.count o + w.tokenCount o + heap.sharedRef o)
    (places : ∀ o, heap.place? o = w.heap.place? o)
    (reserved : ∀ o, 0 < heap.weakRefs o → 0 < w.heap.weakRefs o) :
    ({ w with heap } : World).Counted strong' weak' :=
  ⟨hs, hw, counted.apart.mono places reserved,
    fun n => (counted.keyed n).congr fun o _ => Heap.address_congr (places o)⟩

end Counted

theorem Numbered.congr {v w : World} (numbered : v.Numbered)
    (contents : ∀ o n, w.registryNumber? o = some n → v.registryNumber? o = some n)
    (size : w.registries.size = v.registries.size) : w.Numbered where
  bounds o n h := by rw [size]; exact numbered.bounds o n (contents o n h)
  unique o p n first second := numbered.unique o p n (contents o n first) (contents p n second)
  process := by rw [size]; exact numbered.process

theorem Open.lt_size {w : World} {n : Nat} (numbered : w.Numbered) (h : w.Open n) :
    n < w.registries.size := by
  rcases h with rfl | ⟨o, -, number⟩
  · exact numbered.process
  · exact (numbered.bounds o n number).2

theorem Numbered.refNumber_lt_size {w : World} {ref : RegistryRef} {n : Nat}
    (numbered : w.Numbered) (h : w.refNumber? ref = some n) : n < w.registries.size := by
  cases ref with
  | processWide =>
    obtain rfl := Option.some.inj h
    exact numbered.process
  | shared object => exact (numbered.bounds object n h).2

end World

end WeakIdentity
