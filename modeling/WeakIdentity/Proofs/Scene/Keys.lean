import WeakIdentity.Proofs.Ledger.Agreement

/-! Addresses are sound keys: as long as there is an entry, the block under its address is reserved
and is the one for which the id of the entry was given. -/

namespace WeakIdentity

namespace World

variable {w : World} {strong weak : Multiset Object}

/-- A call adds no entry, or the one of the object that it gives an id. -/
theorem mem_entries_ask {query : Query} {n : Nat} {entry : Entry}
    (bound : query.registry < w.registries.size)
    (mem : entry ∈ ((w.ask query).1.registry n).entries) :
    entry ∈ (w.registry n).entries ∨
      query = ⟨n, .observe, entry.token⟩ ∧ w.idOf n entry.token = none ∧
        (w.ask query).2 = some entry.id ∧ entry.id = ⟨(w.registry n).minted⟩ := by
  obtain ⟨k, call, o⟩ := query
  cases call with
  | lookup => exact Or.inl mem
  | observe =>
    simp only [ask] at mem ⊢
    cases h : w.idOf k o with
    | some id =>
      rw [observe_of_known h, registry_apply bound] at mem
      split at mem
      · next same => rw [same]; exact Or.inl mem
      · exact Or.inl mem
    | none =>
      rw [observe_of_unknown h] at mem ⊢
      rw [registry_apply bound] at mem
      split at mem
      · next same =>
        subst same
        rcases List.mem_cons.mp mem with rfl | old
        · exact Or.inr ⟨rfl, h, rfl, rfl⟩
        · exact Or.inl ((Registry.sublist_makeRoom _ _).subset old)
      · exact Or.inl mem
  | forget =>
    simp only [ask] at mem
    refine Or.inl ?_
    cases h : w.idOf k o with
    | none =>
      rw [forget_of_unknown h, registry_apply bound] at mem
      split at mem
      · next same => rw [same]; exact mem
      · exact mem
    | some id =>
      obtain ⟨found, -, -, forgotten⟩ := forget_of_known h
      rw [forgotten, registry_apply bound] at mem
      split at mem
      · next same => rw [same]; exact List.mem_of_mem_filter mem
      · exact mem

@[simp] theorem place?_ask (w : World) (query : Query) (o : Object) :
    (w.ask query).1.heap.place? o = w.heap.place? o := by
  obtain ⟨n, call, p⟩ := query
  cases call with
  | lookup => rfl
  | observe => exact place?_apply w n _ o
  | forget => exact place?_apply w n _ o

end World

namespace Scene

variable {s t : Scene} {calls history : List CallRecord}

/-- At some point of the run the registry assigned the id of the entry to its object, which had
none, and whose block was where it is now. -/
def MintedFor (history : List CallRecord) (s : Scene) (n : Nat) (entry : Entry) : Prop :=
  ∃ before after m t,
    history = before ++ ⟨⟨n, .observe, entry.token⟩, some entry.id⟩ :: after ∧
    Reachable before m ∧ Step m [⟨⟨n, .observe, entry.token⟩, some entry.id⟩] t ∧ Run t after s ∧
    m.world.idOf n entry.token = none ∧ entry.id = ⟨(m.world.registry n).minted⟩ ∧
    m.world.heap.place? entry.token = s.world.heap.place? entry.token

theorem place?_ne_none (sound : s.Sound) {n : Nat} {entry : Entry}
    (mem : entry ∈ (s.world.registry n).entries) : s.world.heap.place? entry.token ≠ none := by
  obtain ⟨start, layout, there⟩ := Heap.place_of_weak (sound.counted.token_reserved mem)
  simp [there]

/-- The id of every entry was given for its object. -/
theorem Reachable.minted (h : Reachable history s) {n : Nat} {entry : Entry}
    (mem : entry ∈ (s.world.registry n).entries) : MintedFor history s n entry := by
  induction h with
  | refl =>
    have empty : (({} : World).registry n).entries = [] := by
      rw [World.registry_eq_getD]
      cases n <;> rfl
    rw [empty] at mem
    cases mem
  | @step m t before calls run last ih =>
    have sound := Run.sound run sound_start
    -- An entry of the scene before was assigned in an earlier step, and a new one in this step.
    have old : entry ∈ (m.world.registry n).entries →
        MintedFor (before ++ calls) t n entry := by
      intro there
      obtain ⟨first, later, m', t', rfl, reached, minting, rest, unknown, next, place⟩ := ih there
      refine ⟨first, later ++ calls, m', t', by simp, reached, minting, rest.step last, unknown,
        next, ?_⟩
      rw [place, (last.later sound).places _ (place?_ne_none sound there)]
    rcases last.quiet_or_ask sound with ⟨-, quiet⟩ | ⟨query, usable, held, rfl, after⟩
    · exact old (quiet.entries n mem)
    · rw [after] at mem
      rcases World.mem_entries_ask (usable.lt_size sound.numbered) mem with there | new
      · exact old there
      · obtain ⟨rfl, unknown, answer, next⟩ := new
        rw [answer] at last ⊢
        refine ⟨before, [], m, t, rfl, run, last, Run.refl _, unknown, next, ?_⟩
        rw [after, World.place?_ask]

/-- Addresses are sound keys. The block under the address of an entry is reserved and is the one
for which the id was assigned, so that a live object at that address is the object of the entry, and
an entry that is found for a held object is live. -/
theorem keys_sound (h : Reachable history s) :
    (∀ n, ∀ entry ∈ (s.world.registry n).entries,
      (∃ block, s.world.heap.block? entry.token = some block ∧ block.isReserved = true ∧
        block.address = entry.address) ∧
      MintedFor history s n entry ∧
      ∀ o, s.world.heap.isLive o = true → s.world.heap.address o = entry.address →
        o = entry.token) ∧
    (∀ o p block block', o ≠ p → s.world.heap.block? o = some block →
      s.world.heap.block? p = some block' → block.isReserved = true → block'.isReserved = true →
      block.address ≠ block'.address ∧ (block.stop ≤ block'.start ∨ block'.stop ≤ block.start)) ∧
    (∀ n o entry, s.world.heap.isLive o = true →
      (s.world.registry n).find? (s.world.heap.address o) = some entry →
      s.world.heap.isLive entry.token = true) := by
  have counted := h.sound.counted
  refine ⟨fun n entry mem => ⟨?_, h.minted mem, fun o live same => ?_⟩, ?_, ?_⟩
  · have reserved := counted.token_reserved mem
    obtain ⟨block, hb, weak⟩ := Heap.block_of_weak reserved
    rw [← weak] at reserved
    refine ⟨block, hb, by simpa [Block.isReserved] using reserved, ?_⟩
    rw [(counted.keyed n).address entry mem, Heap.address, hb]
    rfl
  · exact (counted.token_of_address mem (counted.reserved_of_live live) same.symm).symm
  · intro o p block block' different ho hp reserved reserved'
    have weak : 0 < s.world.heap.weakRefs o := by
      rw [Heap.weakRefs, ho]
      simpa [Block.isReserved] using reserved
    have weak' : 0 < s.world.heap.weakRefs p := by
      rw [Heap.weakRefs, hp]
      simpa [Block.isReserved] using reserved'
    constructor
    · intro same
      refine different (counted.apart.eq_of_address weak weak' ?_)
      rw [Heap.address, Heap.address, ho, hp]
      exact same
    · exact counted.apart different weak weak' (by rw [Heap.place?, ho]; rfl)
        (by rw [Heap.place?, hp]; rfl)
  · intro n o entry live found
    obtain ⟨-, rfl⟩ := (counted.find?_eq_some (counted.reserved_of_live live)).mp found
    exact live

/-- Two objects without payload lie next to each other: the address of the first is the start of
the block of the second. -/
theorem keys_sound_neighbours :
    ∃ history s, Reachable history s ∧
      (⟨16, .nth 0, ⟨0⟩⟩ : Entry) ∈ (s.world.registry 0).entries ∧
      (s.world.heap.block? ⟨1⟩).map Block.start = some 16 ∧
      ∃ block, s.world.heap.block? ⟨0⟩ = some block ∧ block.isReserved = true ∧
        block.address = 16 := by
  have held : ∀ (strong : Multiset Object), ∀ o ∈ Content.plain.owned, o ∈ strong := by
    simp [Content.owned]
  have first : Run {} [] _ := (Step.create .beyond (.aligned 1 0) (held 0) (by simp)).run
  have second := first.step (Step.create .beyond (.aligned 1 0) (held _) (by simp))
  have third := second.step (Step.ask ⟨0, .observe, ⟨0⟩⟩ (Or.inl rfl)
    (Multiset.mem_cons_of_mem (Multiset.mem_cons_self _ _)))
  have fourth := third.step
    (Step.ask ⟨0, .observe, ⟨1⟩⟩ (Or.inl rfl) (Multiset.mem_cons_self _ _))
  refine ⟨_, _, fourth, by decide +kernel, by decide +kernel, ?_⟩
  exact ((keys_sound fourth).1 0 ⟨16, .nth 0, ⟨0⟩⟩ (by decide +kernel)).1

end Scene

end WeakIdentity
