import WeakIdentity.Proofs.Ledger.Basic

/-! Quiet changes: those that leave the id of every live object as it was and give none to a new
object. All operations that ask for no id are quiet, sweeps among them. -/

namespace WeakIdentity

namespace World

variable {w v : World} {strong weak strong' weak' : Multiset Object}

/-- `v` may come after `w`: no dead object becomes live, no registry opens again, and no block
moves. -/
structure Later (w v : World) : Prop where
  usable : ∀ n, v.Open n → w.Open n ∨ w.registries.size ≤ n
  live : ∀ o, v.heap.isLive o = true → w.heap.isLive o = true ∨ w.heap.place? o = none
  places : ∀ o, w.heap.place? o ≠ none → v.heap.place? o = w.heap.place? o
  registries : w.registries.size ≤ v.registries.size

/-- No later answer about an id distinguishes `v` from `w`. -/
structure Quiet (w v : World) : Prop extends Later w v where
  ids : ∀ n o, v.Open n → v.heap.isLive o = true →
    (w.Open n ∧ w.heap.isLive o = true ∧ v.idOf n o = w.idOf n o) ∨
      ((w.registries.size ≤ n ∨ w.heap.place? o = none) ∧ v.idOf n o = none)
  entries : ∀ n, (v.registry n).entries ⊆ (w.registry n).entries
  minted : ∀ n, (v.registry n).minted = (w.registry n).minted
  notices : v.notices = w.notices

theorem Later.refl (w : World) : w.Later w where
  usable _ usable := Or.inl usable
  live _ live := Or.inl live
  places _ _ := rfl
  registries := Nat.le_refl _

theorem Later.absent (later : w.Later v) {o : Object} (h : v.heap.place? o = none) :
    w.heap.place? o = none := by
  by_contra there
  rw [later.places o there] at h
  exact there h

theorem Later.trans {u : World} (first : w.Later v) (second : v.Later u) : w.Later u where
  usable n usable := by
    rcases second.usable n usable with usable' | beyond
    · exact first.usable n usable'
    · exact Or.inr (Nat.le_trans first.registries beyond)
  live o live := by
    rcases second.live o live with live' | absent
    · exact first.live o live'
    · exact Or.inr (first.absent absent)
  places o there := by
    have kept := first.places o there
    rw [← kept] at there ⊢
    exact second.places o there
  registries := Nat.le_trans first.registries second.registries

theorem later_apply (w : World) (n : Nat) (change : Change) : w.Later (w.apply n change) where
  usable k usable := by
    rw [open_apply] at usable
    exact Or.inl usable
  live o live := by
    rw [isLive_apply] at live
    exact Or.inl live
  places o _ := place?_apply w n change o
  registries := Nat.le_of_eq (size_apply w n change).symm

theorem later_ask (w : World) (query : Query) : w.Later (w.ask query).1 := by
  obtain ⟨n, call, o⟩ := query
  cases call with
  | lookup => exact Later.refl w
  | observe => exact later_apply w n _
  | forget => exact later_apply w n _

/-! ### Ids after a change of one registry -/

theorem idOf_congr {n : Nat} {o : Object}
    (entries : (v.registry n).entries = (w.registry n).entries)
    (place : v.heap.place? o = w.heap.place? o) : v.idOf n o = w.idOf n o := by
  simp only [idOf_eq, Registry.idOf, Registry.find?, entries, Heap.address_congr place]

theorem idOf_apply_of_ne {n k : Nat} (bound : n < w.registries.size) (other : k ≠ n)
    (change : Change) (o : Object) : (w.apply n change).idOf k o = w.idOf k o := by
  rw [idOf_eq, idOf_eq, registry_apply bound, if_neg other, address_apply]

/-- An object keeps its id if the change keeps its entries. -/
theorem idOf_apply {n : Nat} {change : Change} {o : Object} (sound : w.Sound strong weak)
    (after : (w.apply n change).Sound strong' weak') (bound : n < w.registries.size)
    (live : w.heap.isLive o = true)
    (kept : ∀ entry : Entry, entry.token = o →
      (entry ∈ change.registry.entries ↔ entry ∈ (w.registry n).entries)) :
    (w.apply n change).idOf n o = w.idOf n o := by
  have reserved := sound.counted.reserved_of_live live
  have later : 0 < (w.apply n change).heap.weakRefs o :=
    after.counted.reserved_of_live (by rwa [isLive_apply])
  ext id
  rw [after.counted.idOf_eq_some later, sound.counted.idOf_eq_some reserved,
    registry_apply bound, if_pos rfl]
  constructor
  · rintro ⟨entry, mem, token, same⟩
    exact ⟨entry, (kept entry token).mp mem, token, same⟩
  · rintro ⟨entry, mem, token, same⟩
    exact ⟨entry, (kept entry token).mpr mem, token, same⟩

theorem notices_apply (w : World) (n : Nat) (change : Change) :
    (w.apply n change).notices =
      w.notices ++ change.events.filterMap fun event => Notice.ofEvent? (n, event) := by
  rw [notices, notices, apply, List.filterMap_append, List.filterMap_map]
  rfl

/-! ### Quiet changes -/

theorem Quiet.refl (w : World) : w.Quiet w where
  toLater := Later.refl w
  ids _ _ usable live := Or.inl ⟨usable, live, rfl⟩
  entries _ := List.Subset.refl _
  minted _ := rfl
  notices := rfl

theorem Quiet.trans {u : World} (first : w.Quiet v) (second : v.Quiet u) : w.Quiet u where
  toLater := first.toLater.trans second.toLater
  ids n o usable live := by
    rcases second.ids n o usable live with ⟨usable', live', same⟩ | ⟨new, unknown⟩
    · rw [same]
      exact first.ids n o usable' live'
    · refine Or.inr ⟨?_, unknown⟩
      rcases new with beyond | absent
      · exact Or.inl (Nat.le_trans first.registries beyond)
      · exact Or.inr (first.absent absent)
  entries n := List.Subset.trans (second.entries n) (first.entries n)
  minted n := (second.minted n).trans (first.minted n)
  notices := second.notices.trans first.notices

/-- A change of the heap that makes no object live, moves no block and keeps the registries. -/
theorem Quiet.reheap {heap : Heap} (live : ∀ o, heap.isLive o = true → w.heap.isLive o = true)
    (numbers : ∀ o n, heap.content? o = some (.registry n) →
      w.heap.content? o = some (.registry n))
    (places : ∀ o, heap.place? o = w.heap.place? o) : w.Quiet { w with heap } := by
  have opened : ∀ n, ({ w with heap } : World).Open n → w.Open n := by
    rintro n (process | ⟨p, alive, number⟩)
    · exact Or.inl process
    · rw [registryNumber?_eq_some] at number
      exact Or.inr ⟨p, live p alive, registryNumber?_eq_some.mpr (numbers p n number)⟩
  have later : w.Later { w with heap } :=
    ⟨fun n usable => Or.inl (opened n usable), fun o alive => Or.inl (live o alive),
      fun o _ => places o, Nat.le_refl _⟩
  exact ⟨later, fun n o usable alive =>
    Or.inl ⟨opened n usable, live o alive, idOf_congr rfl (places o)⟩,
    fun _ => List.Subset.refl _, fun _ => rfl, rfl⟩

/-- A change of one registry that keeps the entries of live objects. -/
theorem Quiet.apply {n : Nat} {change : Change} (sound : w.Sound strong weak)
    (after : (w.apply n change).Sound strong' weak') (bound : n < w.registries.size)
    (fewer : change.registry.entries ⊆ (w.registry n).entries)
    (kept : w.Open n → ∀ entry ∈ (w.registry n).entries, w.heap.isLive entry.token = true →
      entry ∈ change.registry.entries)
    (minted : change.registry.minted = (w.registry n).minted)
    (silent : change.events.filterMap (fun event => Notice.ofEvent? (n, event)) = []) :
    w.Quiet (w.apply n change) where
  toLater := later_apply w n change
  ids k o usable live := by
    rw [open_apply] at usable
    rw [isLive_apply] at live
    refine Or.inl ⟨usable, live, ?_⟩
    by_cases same : k = n
    · subst same
      refine idOf_apply sound after bound live fun entry token => ⟨fun mem => fewer mem, ?_⟩
      intro mem
      exact kept usable entry mem (by rw [token]; exact live)
    · exact idOf_apply_of_ne bound same change o
  entries k := by
    rw [registry_apply bound]
    split
    · next same => rw [same]; exact fewer
    · exact List.Subset.refl _
  minted k := by
    rw [registry_apply bound]
    split
    · next same => rw [same, minted]
    · rfl
  notices := by rw [notices_apply, silent, List.append_nil]

theorem quiet_purge (sound : w.Sound strong weak) {n : Nat} (bound : n < w.registries.size) :
    w.Quiet (w.purge n).1 := by
  have after := sound.purge bound
  rw [purge_eq] at after ⊢
  have fewer := (Registry.sublist_sweep w.heap.isLive (w.registry n)).subset
  refine Quiet.apply sound after bound fewer (fun _ entry mem live => ?_) rfl rfl
  rw [Registry.mem_sweep]
  exact ⟨mem, live⟩

/-- A registry that can no longer be called may lose its entries. -/
theorem quiet_close (sound : w.Sound strong weak) {n : Nat} (bound : n < w.registries.size)
    (unusable : ¬w.Open n) : w.Quiet (w.close n) :=
  Quiet.apply sound (sound.close bound) bound (List.nil_subset _)
    (fun usable => absurd usable unusable) rfl rfl

theorem quiet_report (w : World) (destruction : Destruction) : w.Quiet (w.report destruction) where
  usable _ usable := Or.inl usable
  live _ live := Or.inl live
  places _ _ := rfl
  registries := Nat.le_refl _
  ids _ _ usable live := Or.inl ⟨usable, live, rfl⟩
  entries _ := List.Subset.refl _
  minted _ := rfl
  notices := rfl

/-- A task of a destruction is quiet. A destroyed registry has no other object of its number. -/
theorem quiet_finalize (sound : w.Sound strong weak) {content : Content}
    (number : ∀ n, content = .registry n → n < w.registries.size ∧ ¬w.Open n) :
    w.Quiet (w.finalize content) := by
  cases content with
  | plain => exact Quiet.refl w
  | probe name => exact quiet_report w _
  | node name links => exact quiet_report w _
  | keeper name target => exact quiet_report w _
  | purger name target =>
    simp only [finalize]
    split
    · exact quiet_report w _
    · next n found =>
      have purged := quiet_purge sound (sound.numbered.refNumber_lt_size found)
      exact purged.trans (quiet_report _ _)
  | registry n => exact quiet_close sound (number n rfl).1 (number n rfl).2

/-! ### Quiet operations -/

theorem quiet_retain {o : Object} (live : w.heap.isLive o = true) : w.Quiet (w.retain o) :=
  Quiet.reheap (fun p alive => by rwa [Heap.isLive_retain live] at alive)
    (fun p n number => by rwa [Heap.content?_retain] at number)
    (fun p => Heap.place?_retain w.heap o p)

theorem quiet_retainWeak (w : World) (o : Object) : w.Quiet (w.retainWeak o) := by
  refine Quiet.reheap (fun p alive => ?_) (fun p n number => ?_)
    (fun p => Heap.place?_retainWeak w.heap o p)
  · rwa [Heap.isLive_iff, Heap.strongCount_retainWeak, ← Heap.isLive_iff] at alive
  · rwa [Heap.content?_retainWeak] at number

theorem quiet_releaseWeak (w : World) (o : Object) : w.Quiet (w.releaseWeak o) := by
  refine Quiet.reheap (fun p alive => ?_) (fun p n number => ?_)
    (fun p => Heap.place?_releaseWeak w.heap o p)
  · rwa [Heap.isLive_iff, Heap.strongCount_releaseWeak, ← Heap.isLive_iff] at alive
  · rwa [Heap.content?_releaseWeak] at number

theorem quiet_unretain (w : World) (o : Object) :
    w.Quiet { w with heap := w.heap.unretain o } := by
  refine Quiet.reheap (fun p alive => ?_) (fun p n number => ?_)
    (fun p => Heap.place?_unretain w.heap o p)
  · rw [Heap.isLive_iff, Heap.strongCount_unretain] at alive
    rw [Heap.isLive_iff]
    omega
  · rwa [Heap.content?_unretain] at number

theorem quiet_setContent {o : Object} {block : Block} (hb : w.heap.block? o = some block)
    (name : String) (links : List Object) :
    w.Quiet { w with heap := w.heap.setContent o (.node name links) } := by
  refine Quiet.reheap (fun p alive => ?_) (fun p n number => ?_)
    (fun p => Heap.place?_setContent w.heap o p _)
  · rwa [Heap.isLive_iff, Heap.strongCount_setContent, ← Heap.isLive_iff] at alive
  · rw [Heap.content?_setContent hb] at number
    split at number
    · exact absurd (Option.some.inj number) (by simp)
    · exact number

theorem quiet_link {node target : Object} (live : w.heap.isLive target = true)
    (h : w.link? node target = some v) : w.Quiet v := by
  unfold link? at h
  split at h
  · next name links content =>
    rw [← Option.some.inj h]
    obtain ⟨found, hf⟩ : ∃ found, (w.retain target).heap.block? node = some found := by
      have read := Heap.content?_retain w.heap target node
      rw [Heap.content?, Heap.content?, content] at read
      obtain ⟨found, hf, -⟩ := Option.map_eq_some_iff.mp read
      exact ⟨found, hf⟩
    exact (quiet_retain live).trans (quiet_setContent hf name (links ++ [target]))
  · cases h

theorem quiet_perform {o : Object} (sound : w.Sound (o ::ₘ strong) weak) :
    w.Quiet (w.perform (.release o)).1 := by
  have live := sound.counted.live_of_mem (Multiset.mem_cons_self o strong)
  obtain ⟨block, hb, -⟩ := Heap.block_of_live live
  have dropped := quiet_unretain w o
  by_cases last : block.strong = 1
  · rw [perform_last hb last]
    exact dropped.trans (quiet_finalize (sound.unretain_last hb last) fun n content =>
      sound.numbered.not_open_unretain hb last content)
  · rw [perform_more hb last]
    exact dropped

/-! ### New objects -/

theorem place?_create_of_ne {o : Object} (alloc : Allocator) (layout : Layout)
    (content : Content) (other : o ≠ w.heap.nextObject) :
    (w.create alloc layout content).1.heap.place? o = w.heap.place? o := by
  have kept := Heap.read_foldl (fun heap => heap.place? o)
    (fun heap p => Heap.place?_retain heap p o) w.heap content.owned
  rw [create_eq]
  exact (Heap.place?_allocate_of_ne _ alloc layout content
    (by rwa [Heap.nextObject_foldl_retain])).trans kept

theorem place?_nextObject (heap : Heap) : heap.place? heap.nextObject = none := by
  rw [Heap.place?, Heap.block?_nextObject]
  rfl

/-- No entry is for an object that is not there yet. -/
theorem idOf_nextObject (sound : w.Sound strong weak) (after : v.Sound strong' weak') {n : Nat}
    (entries : (v.registry n).entries = (w.registry n).entries)
    (live : v.heap.isLive w.heap.nextObject = true) : v.idOf n w.heap.nextObject = none := by
  rw [Option.eq_none_iff_forall_ne_some]
  intro id found
  rw [after.counted.idOf_eq_some (after.counted.reserved_of_live live)] at found
  obtain ⟨entry, mem, token, -⟩ := found
  rw [entries] at mem
  exact Heap.ne_nextObject_of_weak (sound.counted.token_reserved mem) token

/-- Only the new object has come to life. -/
theorem isLive_create {alloc : Allocator} {layout : Layout} {content : Content}
    (held : ∀ o ∈ content.owned, w.heap.isLive o = true) (o : Object) :
    (w.create alloc layout content).1.heap.isLive o = true ↔
      w.heap.isLive o = true ∨ o = w.heap.nextObject := by
  rw [create_eq, ← Heap.isLive_foldl_retain held, Heap.isLive_iff, Heap.isLive_iff,
    Heap.strongCount_allocate, Heap.nextObject_foldl_retain]
  split
  · next new => exact iff_of_true (by omega) (Or.inr new)
  · next old => rw [Nat.add_zero, or_iff_left old]

theorem live_of_live_create {alloc : Allocator} {layout : Layout} {content : Content} {o : Object}
    (held : ∀ o ∈ content.owned, w.heap.isLive o = true)
    (live : (w.create alloc layout content).1.heap.isLive o = true)
    (other : o ≠ w.heap.nextObject) : w.heap.isLive o = true :=
  ((isLive_create held o).mp live).resolve_right other

theorem quiet_create {alloc : Allocator} {layout : Layout} {content : Content}
    (sound : w.Sound strong weak) (held : ∀ o ∈ content.owned, o ∈ strong)
    (plain : ∀ n, content ≠ .registry n) : w.Quiet (w.create alloc layout content).1 := by
  have live := fun o mem => sound.counted.live_of_mem (held o mem)
  have after := sound.create alloc layout held plain
  have old : ∀ n, (w.create alloc layout content).1.Open n → w.Open n := by
    rintro n (process | ⟨p, alive, number⟩)
    · exact Or.inl process
    · rw [registryNumber?_eq_some, content?_create] at number
      split at number
      · exact absurd (Option.some.inj number) (plain n)
      · next old =>
        exact Or.inr ⟨p, live_of_live_create live alive old, registryNumber?_eq_some.mpr number⟩
  refine ⟨⟨fun n usable => Or.inl (old n usable), fun o alive => ?_, fun o there => ?_,
    Nat.le_refl _⟩, fun n o usable alive => ?_, fun n => List.Subset.refl _, fun n => rfl, rfl⟩
  · by_cases new : o = w.heap.nextObject
    · exact Or.inr (by rw [new, place?_nextObject])
    · exact Or.inl (live_of_live_create live alive new)
  · refine place?_create_of_ne alloc layout content fun new => there ?_
    rw [new, place?_nextObject]
  · by_cases new : o = w.heap.nextObject
    · subst new
      exact Or.inr ⟨Or.inr (place?_nextObject w.heap), idOf_nextObject sound after rfl alive⟩
    · exact Or.inl ⟨old n usable, live_of_live_create live alive new,
        idOf_congr rfl (place?_create_of_ne alloc layout content new)⟩

/-- A new table is as empty as the one that a number stands for before it is given. -/
theorem registry_createRegistry (w : World) (alloc : Allocator) (options : Options) (n : Nat) :
    ((w.createRegistry alloc (.ofOptions options)).1.registry n).entries =
        (w.registry n).entries ∧
      ((w.createRegistry alloc (.ofOptions options)).1.registry n).minted =
        (w.registry n).minted := by
  rw [createRegistry_eq, create_eq, registry_push]
  split
  · next same =>
    rw [registry_of_size_le (Nat.le_of_eq same.symm)]
    exact ⟨rfl, rfl⟩
  · exact ⟨rfl, rfl⟩

theorem quiet_createRegistry {alloc : Allocator} {options : Options}
    (sound : w.Sound strong weak) :
    w.Quiet (w.createRegistry alloc (.ofOptions options)).1 := by
  have after := sound.createRegistry alloc (.ofOptions options) rfl
  have table := registry_createRegistry w alloc options
  have places : ∀ o, o ≠ w.heap.nextObject →
      (w.createRegistry alloc (.ofOptions options)).1.heap.place? o = w.heap.place? o :=
    fun o old => by rw [createRegistry_eq]; exact place?_create_of_ne alloc _ _ old
  have live : ∀ o, (w.createRegistry alloc (.ofOptions options)).1.heap.isLive o = true →
      o ≠ w.heap.nextObject → w.heap.isLive o = true := by
    intro o alive old
    rw [createRegistry_eq] at alive
    exact live_of_live_create (by simp [Content.owned]) alive old
  have old : ∀ n, (w.createRegistry alloc (.ofOptions options)).1.Open n →
      w.Open n ∨ n = w.registries.size := by
    rintro n (process | ⟨p, alive, number⟩)
    · exact Or.inl (Or.inl process)
    · rw [registryNumber?_eq_some, createRegistry_eq] at number
      rw [content?_create] at number
      split at number
      · exact Or.inr (Content.registry.inj (Option.some.inj number)).symm
      · next old => exact Or.inl (Or.inr ⟨p, live p alive old, registryNumber?_eq_some.mpr number⟩)
  refine ⟨⟨fun n usable => (old n usable).imp id (·.symm.le), fun o alive => ?_, fun o there => ?_,
    ?_⟩, fun n o usable alive => ?_, fun n => by rw [(table n).1]; exact List.Subset.refl _,
    fun n => (table n).2, rfl⟩
  · by_cases new : o = w.heap.nextObject
    · exact Or.inr (by rw [new, place?_nextObject])
    · exact Or.inl (live o alive new)
  · refine places o fun new => there ?_
    rw [new, place?_nextObject]
  · rw [createRegistry_eq]
    simp
  · by_cases new : o = w.heap.nextObject
    · subst new
      exact Or.inr ⟨Or.inr (place?_nextObject w.heap),
        idOf_nextObject sound after (table n).1 alive⟩
    · have same := idOf_congr (table n).1 (places o new)
      rcases old n usable with usable' | rfl
      · exact Or.inl ⟨usable', live o alive new, same⟩
      · refine Or.inr ⟨Or.inl (Nat.le_refl _), ?_⟩
        rw [same, idOf_eq, registry_of_size_le (Nat.le_refl _)]
        rfl

end World

end WeakIdentity
