import WeakIdentity.Proofs.Scene.Keys

/-! The weak references of tables. A registry that can no longer be called has no entries, so that
the tables of a world hold as many weak references to a live object as there are registries that
return an id for it. -/

namespace WeakIdentity

namespace World

variable {w v : World} {strong weak : Multiset Object}

/-- Every registry can be called, or has no entries. -/
def Vacated (w : World) : Prop := ∀ n, w.Open n ∨ (w.registry n).entries = []

theorem vacated_start : Vacated {} := by
  intro n
  rw [registry_eq_getD]
  cases n <;> exact Or.inr rfl

/-! ### Registries that stay open -/

theorem Open.mono {n : Nat} (usable : w.Open n)
    (live : ∀ o, w.heap.isLive o = true → v.heap.isLive o = true)
    (content : ∀ o k, w.heap.content? o = some (.registry k) →
      v.heap.content? o = some (.registry k)) : v.Open n := by
  rcases usable with process | ⟨o, alive, number⟩
  · exact Or.inl process
  · rw [registryNumber?_eq_some] at number
    exact Or.inr ⟨o, live o alive, registryNumber?_eq_some.mpr (content o n number)⟩

theorem isLive_congr {heap heap' : Heap} (counts : ∀ o, heap'.strongCount o = heap.strongCount o)
    (o : Object) (live : heap.isLive o = true) : heap'.isLive o = true := by
  rw [Heap.isLive_iff] at live ⊢
  rwa [counts]

theorem Open.retainWeak {n : Nat} (usable : w.Open n) (o : Object) : (w.retainWeak o).Open n :=
  usable.mono (isLive_congr fun p => Heap.strongCount_retainWeak w.heap o p)
    fun p k content => by rwa [World.retainWeak, Heap.content?_retainWeak]

theorem Open.releaseWeak {n : Nat} (usable : w.Open n) (o : Object) : (w.releaseWeak o).Open n :=
  usable.mono (isLive_congr fun p => Heap.strongCount_releaseWeak w.heap o p)
    fun p k content => by rwa [World.releaseWeak, Heap.content?_releaseWeak]

theorem Open.setContent {n : Nat} (usable : w.Open n) {node : Object} {name : String}
    {links : List Object} (found : w.heap.content? node = some (.node name links))
    (content : Content) : ({ w with heap := w.heap.setContent node content } : World).Open n := by
  obtain ⟨block, hb, -⟩ := block_of_content found
  refine usable.mono (isLive_congr fun p => Heap.strongCount_setContent w.heap node p content) ?_
  intro p k number
  rw [Heap.content?_setContent hb, if_neg, number]
  rintro rfl
  rw [found] at number
  cases number

theorem Open.create {n : Nat} (usable : w.Open n) (alloc : Allocator) (layout : Layout)
    {content : Content} (held : ∀ o ∈ content.owned, w.heap.isLive o = true) :
    (w.create alloc layout content).1.Open n := by
  refine usable.mono (fun o live => ?_) (fun o k number => ?_)
  · exact (isLive_create held o).mpr (Or.inl live)
  · rw [content?_create, if_neg, number]
    rintro rfl
    rw [Heap.content?, Heap.block?_nextObject] at number
    cases number

theorem Open.unretain {n : Nat} (usable : w.Open n) {o : Object} {block : Block}
    (hb : w.heap.block? o = some block) (kept : block.strong ≠ 1 ∨ block.content ≠ .registry n) :
    ({ w with heap := w.heap.unretain o } : World).Open n := by
  rcases usable with process | ⟨p, alive, number⟩
  · exact Or.inl process
  · refine Or.inr ⟨p, ?_, by rwa [registryNumber?_congr (Heap.content?_unretain w.heap o p)]⟩
    rw [Heap.isLive_iff] at alive ⊢
    rw [Heap.strongCount_unretain]
    split
    · next same =>
      subst same
      rw [registryNumber?_eq_some, Heap.content?, hb] at number
      rw [Heap.strongCount, hb, Option.elim_some] at alive ⊢
      have more := kept.resolve_right fun other => other (Option.some.inj number)
      omega
    · exact alive

theorem Open.finalize {n : Nat} (usable : w.Open n) (content : Content) :
    (w.finalize content).Open n := by
  cases content with
  | plain => exact usable
  | probe name => exact usable
  | node name links => exact usable
  | keeper name target => exact usable
  | registry k => exact open_apply.mpr usable
  | purger name target =>
    simp only [World.finalize]
    split
    · exact usable
    · next k _ =>
      have purged : (w.purge k).1.Open n := by
        rw [purge_eq]
        exact open_apply.mpr usable
      exact purged

theorem open_ask {n : Nat} {query : Query} : (w.ask query).1.Open n ↔ w.Open n := by
  obtain ⟨k, call, o⟩ := query
  cases call with
  | lookup => exact Iff.rfl
  | observe => exact open_apply
  | forget => exact open_apply

/-- When a strong handle is dropped, a registry stays open or is destroyed with its entries. -/
theorem Open.perform {n : Nat} {o : Object} (sound : w.Sound (o ::ₘ strong) weak)
    (usable : w.Open n) :
    (w.perform (.release o)).1.Open n ∨ ((w.perform (.release o)).1.registry n).entries = [] := by
  have live := sound.counted.live_of_mem (Multiset.mem_cons_self o strong)
  obtain ⟨block, hb, -⟩ := Heap.block_of_live live
  by_cases last : block.strong = 1
  · rw [perform_last hb last]
    by_cases itself : block.content = .registry n
    · have bound : n < ({ w with heap := w.heap.unretain o } : World).registries.size :=
        (sound.numbered.not_open_unretain hb last itself).1
      refine Or.inr ?_
      dsimp only
      rw [itself, World.finalize, close, registry_apply bound, if_pos rfl]
      rfl
    · exact Or.inl ((usable.unretain hb (Or.inr itself)).finalize block.content)
  · rw [perform_more hb last]
    exact Or.inl (usable.unretain hb (Or.inl last))

theorem Open.link {n : Nat} (usable : w.Open n) {node target : Object}
    (live : w.heap.isLive target = true) (h : w.link? node target = some v) : v.Open n := by
  unfold link? at h
  split at h
  · next name links content =>
    rw [← Option.some.inj h]
    have found : (w.retain target).heap.content? node = some (.node name links) := by
      rw [World.retain, Heap.content?_retain]
      exact content
    exact (usable.retain live).setContent found _
  · cases h

/-! ### Counting entries -/

section Counting

variable {o : Object} (counted : w.Counted strong weak) (reserved : 0 < w.heap.weakRefs o)
include counted

theorem Counted.nodup_tokens (n : Nat) : (w.registry n).tokens.Nodup := by
  have keyed := counted.keyed n
  have addresses : (w.registry n).entries.map Entry.address =
      (w.registry n).tokens.map w.heap.address := by
    rw [Registry.tokens, List.map_map]
    exact List.map_congr_left keyed.address
  have distinct := keyed.distinct
  rw [addresses] at distinct
  exact distinct.of_map

include reserved

/-- A table has one entry for an object, or none if it has no id for it. -/
theorem Counted.count_tokens (n : Nat) :
    (w.registry n).tokens.count o = if (w.idOf n o).isSome then 1 else 0 := by
  have found : (w.idOf n o).isSome ↔ o ∈ (w.registry n).tokens := by
    rw [Option.isSome_iff_exists, Registry.tokens, List.mem_map]
    simp only [counted.idOf_eq_some reserved]
    constructor
    · rintro ⟨id, entry, mem, token, -⟩
      exact ⟨entry, mem, token⟩
    · rintro ⟨entry, mem, token⟩
      exact ⟨entry.id, entry, mem, token, rfl⟩
  split
  · next some => exact List.count_eq_one_of_mem (counted.nodup_tokens n) (found.mp some)
  · next none => exact List.count_eq_zero_of_not_mem fun mem => none (found.mpr mem)

/-- The tables hold a weak reference to an object for each registry that has an id for it. -/
theorem Counted.tokenCount_eq :
    w.tokenCount o = (List.range w.registries.size).countP fun n => (w.idOf n o).isSome := by
  have tables : w.registries.toList = (List.range w.registries.size).map w.registry := by
    refine List.ext_getElem? fun n => ?_
    by_cases bound : n < w.registries.size
    · rw [Array.getElem?_toList, getElem?_registry bound]
      simp [bound]
    · simp [bound]
  rw [tokenCount, tables, List.map_map]
  induction List.range w.registries.size with
  | nil => rfl
  | cons n rest ih =>
    rw [List.map_cons, List.sum_cons, ih, List.countP_cons, Function.comp,
      counted.count_tokens reserved, Nat.add_comm]

end Counting

end World

namespace Scene

open World

variable {s t : Scene} {calls : List CallRecord}

/-- A registry stays open, or is destroyed with its entries. -/
theorem Step.opens (step : Step s calls t) (sound : s.Sound) {n : Nat}
    (usable : s.world.Open n) : t.world.Open n ∨ (t.world.registry n).entries = [] := by
  cases step with
  | create alloc layout held other =>
    exact Or.inl (usable.create alloc layout fun o mem => sound.counted.live_of_mem (held o mem))
  | openRegistry alloc valid =>
    rw [createRegistry_eq]
    exact Or.inl (usable.create alloc registryLayout (by simp [Content.owned]))
  | clone held => exact Or.inl (usable.retain (sound.counted.live_of_mem held))
  | downgrade held => exact Or.inl (usable.retainWeak _)
  | cloneWeak held => exact Or.inl (usable.retainWeak _)
  | upgrade held live => exact Or.inl (usable.retain live)
  | drop o => exact usable.perform sound
  | dropWeak o => exact Or.inl (usable.releaseWeak o)
  | link holder held linked => exact Or.inl (usable.link (sound.counted.live_of_mem held) linked)
  | unlink holder content => exact Or.inl (usable.setContent content _)
  | purge usable' => exact Or.inl (open_apply.mpr usable)
  | ask query usable' held => exact Or.inl (open_ask.mpr usable)

theorem Step.vacated (step : Step s calls t) (sound : s.Sound) (vacated : s.world.Vacated) :
    t.world.Vacated := by
  intro n
  rcases vacated n with usable | empty
  · exact step.opens sound usable
  · rcases step.quiet_or_ask sound with ⟨-, quiet⟩ | ⟨query, usable, -, -, after⟩
    · have fewer := quiet.entries n
      rw [empty] at fewer
      exact Or.inr (List.subset_nil.mp fewer)
    · rw [after, open_ask]
      by_cases same : query.registry = n
      · subst same
        exact Or.inl usable
      · refine Or.inr (List.eq_nil_iff_forall_not_mem.mpr fun entry mem => ?_)
        rcases mem_entries_ask (usable.lt_size sound.numbered) mem with old | ⟨asked, -⟩
        · rw [empty] at old
          cases old
        · exact same (congrArg Query.registry asked)

theorem Run.vacated (run : Run s calls t) (sound : s.Sound) (vacated : s.world.Vacated) :
    t.world.Vacated := by
  induction run with
  | refl => exact vacated
  | step before last ih => exact last.vacated (before.sound sound) ih

end Scene

end WeakIdentity
