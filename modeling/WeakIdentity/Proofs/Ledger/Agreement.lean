import WeakIdentity.Proofs.Ledger.Law
import WeakIdentity.Proofs.Ledger.Quiet

/-! Registries answer as the ledger does, in every run and whatever is swept, dropped or placed
where on the way. -/

namespace WeakIdentity

namespace World

variable {w : World} {strong weak : Multiset Object}

/-! ### Calls -/

/-- A change of a registry to itself is quiet. -/
theorem quiet_same (sound : w.Sound strong weak) {n : Nat} (bound : n < w.registries.size) :
    w.Quiet (w.apply n { registry := w.registry n }) :=
  Quiet.apply sound (sound.apply bound (Registry.balances_same _ _) (by simp)
    (sound.counted.keyed n)) bound (List.Subset.refl _) (fun _ _ mem _ => mem) rfl rfl

theorem observe_of_known {n : Nat} {o : Object} {id : ObjectId} (h : w.idOf n o = some id) :
    w.observe n o = (w.apply n { registry := w.registry n }, id) := by
  rw [idOf_eq] at h
  obtain ⟨entry, found, rfl⟩ := Option.map_eq_some_iff.mp h
  rw [observe_eq, Registry.observe_of_found found]

theorem forget_of_unknown {n : Nat} {o : Object} (h : w.idOf n o = none) :
    w.forget n o = (w.apply n { registry := w.registry n }, none) := by
  rw [idOf_eq, Registry.idOf, Option.map_eq_none_iff] at h
  rw [forget_eq, Registry.forget_of_unknown h]

section Fresh

variable {n : Nat} {o : Object} (unknown : w.idOf n o = none)
include unknown

theorem observe_of_unknown :
    w.observe n o =
      (w.apply n
        { registry :=
            { ((w.registry n).makeRoom w.heap.isLive).registry with
              entries := ⟨w.heap.address o, ⟨(w.registry n).minted⟩, o⟩ ::
                ((w.registry n).makeRoom w.heap.isLive).registry.entries
              minted := (w.registry n).minted + 1 }
          taken := [o]
          released := ((w.registry n).makeRoom w.heap.isLive).released
          events := ((w.registry n).makeRoom w.heap.isLive).events ++
            [.assign ⟨(w.registry n).minted⟩
              (((w.registry n).makeRoom w.heap.isLive).registry.entries.length + 1)] },
        ⟨(w.registry n).minted⟩) := by
  rw [idOf_eq, Registry.idOf, Option.map_eq_none_iff] at unknown
  rw [observe_eq, Registry.observe_of_unknown unknown]

/-- The first observation of an object gives it the next id, and leaves the others theirs. -/
theorem idOf_observe (sound : w.Sound strong weak) (bound : n < w.registries.size)
    (live : w.heap.isLive o = true) (k : Nat) {p : Object} (alive : w.heap.isLive p = true) :
    (w.observe n o).1.idOf k p =
      if k = n ∧ p = o then some ⟨(w.registry n).minted⟩ else w.idOf k p := by
  have after := sound.observe bound live
  rw [observe_of_unknown unknown] at after ⊢
  by_cases other : k = n
  · subst other
    by_cases itself : p = o
    · subst itself
      have reserved := after.counted.reserved_of_live (by rw [isLive_apply]; exact live)
      rw [if_pos ⟨rfl, rfl⟩, after.counted.idOf_eq_some reserved, registry_apply bound, if_pos rfl]
      exact ⟨_, List.mem_cons_self, rfl, rfl⟩
    · rw [if_neg fun both => itself both.2]
      refine idOf_apply sound after bound alive fun entry token => ?_
      have kept : entry ∈ _ ↔ entry ∈ _ := Registry.mem_makeRoom_of_alive w.heap.isLive
        (w.registry k) (by rw [token]; exact alive)
      rw [List.mem_cons, kept]
      refine or_iff_right fun new => itself ?_
      rw [← token, new]
  · rw [if_neg fun both => other both.1]
    exact idOf_apply_of_ne bound other _ p

theorem minted_observe (bound : n < w.registries.size) (k : Nat) :
    ((w.observe n o).1.registry k).minted =
      if k = n then (w.registry n).minted + 1 else (w.registry k).minted := by
  rw [observe_of_unknown unknown, registry_apply bound]
  split <;> rfl

theorem notices_observe :
    (w.observe n o).1.notices = w.notices ++ [.assign n ⟨(w.registry n).minted⟩] := by
  rw [observe_of_unknown unknown, notices_apply, List.filterMap_append]
  have silent : ((w.registry n).makeRoom w.heap.isLive).events.filterMap
      (fun event => Notice.ofEvent? (n, event)) = [] := by
    unfold Registry.makeRoom
    split <;> rfl
  rw [silent]
  rfl

end Fresh

section Known

variable {n : Nat} {o : Object} {id : ObjectId} (known : w.idOf n o = some id)
include known

theorem forget_of_known :
    ∃ entry, (w.registry n).find? (w.heap.address o) = some entry ∧ entry.id = id ∧
      w.forget n o =
        (w.apply n
          { registry :=
              { w.registry n with
                entries := (w.registry n).entries.filter fun other =>
                  other.address != w.heap.address o }
            released := [entry.token]
            events := [.forget id] },
          some id) := by
  rw [idOf_eq] at known
  obtain ⟨entry, found, rfl⟩ := Option.map_eq_some_iff.mp known
  exact ⟨entry, found, rfl, by rw [forget_eq, Registry.forget_of_found found]⟩

/-- To forget an object takes its id away, and leaves the others theirs. -/
theorem idOf_forget (sound : w.Sound strong weak) (bound : n < w.registries.size)
    (live : w.heap.isLive o = true) (k : Nat) {p : Object} (alive : w.heap.isLive p = true) :
    (w.forget n o).1.idOf k p = if k = n ∧ p = o then none else w.idOf k p := by
  have after := sound.forget bound o
  obtain ⟨entry, found, -, forgotten⟩ := forget_of_known known
  rw [forgotten] at after ⊢
  by_cases other : k = n
  · subst other
    by_cases itself : p = o
    · subst itself
      rw [if_pos ⟨rfl, rfl⟩, idOf_eq, Registry.idOf, Option.map_eq_none_iff,
        Registry.find?_eq_none_iff, registry_apply bound, if_pos rfl, address_apply]
      intro other mem
      simpa using (List.mem_filter.mp mem).2
    · rw [if_neg fun both => itself both.2]
      refine idOf_apply sound after bound alive fun other token => ?_
      rw [List.mem_filter]
      refine and_iff_left_of_imp fun mem => ?_
      rw [bne_iff_ne]
      intro same
      have reserved := sound.counted.reserved_of_live live
      exact itself (token ▸ sound.counted.token_of_address mem reserved same)
  · rw [if_neg fun both => other both.1]
    exact idOf_apply_of_ne bound other _ p

theorem minted_forget (bound : n < w.registries.size) (k : Nat) :
    ((w.forget n o).1.registry k).minted = (w.registry k).minted := by
  obtain ⟨entry, -, -, forgotten⟩ := forget_of_known known
  rw [forgotten, registry_apply bound]
  split
  · next same => rw [same]
  · rfl

theorem notices_forget : (w.forget n o).1.notices = w.notices ++ [.forget n id] := by
  obtain ⟨entry, -, -, forgotten⟩ := forget_of_known known
  rw [forgotten, notices_apply]
  rfl

end Known

end World

open World

namespace Ledger

variable {ledger : Ledger} {w v : World} {strong weak : Multiset Object}

/-- The ledger has the ids that the registries return, now and later. -/
structure Agrees (ledger : Ledger) (w : World) : Prop where
  ids : ∀ n o, w.Open n → w.heap.isLive o = true → w.idOf n o = ledger.id? n o
  known : ∀ n o, ledger.id? n o ≠ none → n < w.registries.size ∧ w.heap.place? o ≠ none
  minted : ∀ n, (w.registry n).minted = .ofNat (ledger.minted n)
  notices : w.notices = ledger.notices

theorem agrees_start : Agrees {} ({} : World) where
  ids n o _ live := by simp [Heap.isLive, Heap.block?] at live
  known n o h := absurd rfl h
  minted n := by
    rw [registry_eq_getD]
    cases n <;> simp <;> rfl
  notices := rfl

theorem Agrees.quiet (agrees : ledger.Agrees w) (quiet : w.Quiet v) : ledger.Agrees v where
  ids n o usable live := by
    rcases quiet.ids n o usable live with ⟨usable', live', same⟩ | ⟨new, unknown⟩
    · rw [same, agrees.ids n o usable' live']
    · rw [unknown]
      by_contra known
      obtain ⟨bound, there⟩ := agrees.known n o (Ne.symm known)
      rcases new with beyond | absent
      · omega
      · exact there absent
  known n o h := by
    obtain ⟨bound, there⟩ := agrees.known n o h
    have grown := quiet.registries
    exact ⟨by omega, by rwa [quiet.places o there]⟩
  minted n := (quiet.minted n).trans (agrees.minted n)
  notices := quiet.notices.trans agrees.notices

/-- An object that is live or not yet allocated has an id just if it has an entry. -/
theorem Agrees.unknown_iff (agrees : ledger.Agrees w) (sound : w.Sound strong weak) {n : Nat}
    {o : Object} (usable : w.Open n ∨ w.registries.size ≤ n)
    (live : w.heap.isLive o = true ∨ w.heap.place? o = none) :
    ledger.id? n o = none ↔ o ∉ (w.registry n).tokens := by
  have counted := sound.counted
  rcases usable with usable | beyond
  · rcases live with live | absent
    · rw [← agrees.ids n o usable live, Option.eq_none_iff_forall_ne_some, Registry.tokens,
        List.mem_map]
      constructor
      · rintro unknown ⟨entry, mem, token⟩
        exact unknown entry.id
          ((counted.idOf_eq_some (counted.reserved_of_live live)).mpr ⟨entry, mem, token, rfl⟩)
      · intro missing id found
        obtain ⟨entry, mem, token, -⟩ :=
          (counted.idOf_eq_some (counted.reserved_of_live live)).mp found
        exact missing ⟨entry, mem, token⟩
    · refine iff_of_true ?_ ?_
      · by_contra known
        exact (agrees.known n o known).2 absent
      · intro mem
        obtain ⟨entry, there, rfl⟩ := List.mem_map.mp mem
        obtain ⟨start, layout, place⟩ := Heap.place_of_weak (counted.token_reserved there)
        rw [absent] at place
        cases place
  · refine iff_of_true ?_ ?_
    · by_contra known
      have bound := (agrees.known n o known).1
      omega
    · rw [registry_of_size_le beyond]
      simp [Registry.tokens, Registry.ofOptions]

theorem Agrees.observe (agrees : ledger.Agrees w) (sound : w.Sound strong weak) {n : Nat}
    {o : Object} (usable : w.Open n) (live : w.heap.isLive o = true) :
    some (w.observe n o).2 = (ledger.ask ⟨n, .observe, o⟩).2 ∧
      (ledger.ask ⟨n, .observe, o⟩).1.Agrees (w.observe n o).1 := by
  have bound := usable.lt_size sound.numbered
  have same := agrees.ids n o usable live
  have next : (⟨(w.registry n).minted⟩ : ObjectId) = .nth (ledger.minted n) := by
    rw [agrees.minted]
    rfl
  cases h : ledger.id? n o with
  | some id =>
    rw [h] at same
    rw [observe_of_known same]
    simp only [ask, h]
    exact ⟨trivial, agrees.quiet (quiet_same sound bound)⟩
  | none =>
    rw [h] at same
    simp only [ask, h]
    refine ⟨by rw [observe_of_unknown same, next],
      ⟨fun k p usable' alive => ?_, fun k p known => ?_, fun k => ?_, ?_⟩⟩
    · rw [observe_eq, open_apply] at usable'
      rw [observe_eq, isLive_apply] at alive
      rw [idOf_observe same sound bound live k alive, next, agrees.ids k p usable' alive, assign]
    · rw [observe_eq, size_apply, place?_apply]
      simp only [assign] at known
      split at known
      · next new =>
        obtain ⟨rfl, rfl⟩ := new
        obtain ⟨start, layout, there⟩ :=
          Heap.place_of_weak (sound.counted.reserved_of_live live)
        exact ⟨bound, by simp [there]⟩
      · exact agrees.known k p known
    · rw [minted_observe same bound, agrees.minted, agrees.minted]
      simp only [assign]
      split
      · exact (UInt64.ofNat_add (ledger.minted n) 1).symm
      · rfl
    · rw [notices_observe same, next, agrees.notices, assign]

theorem Agrees.forget (agrees : ledger.Agrees w) (sound : w.Sound strong weak) {n : Nat}
    {o : Object} (usable : w.Open n) (live : w.heap.isLive o = true) :
    (w.forget n o).2 = (ledger.ask ⟨n, .forget, o⟩).2 ∧
      (ledger.ask ⟨n, .forget, o⟩).1.Agrees (w.forget n o).1 := by
  have bound := usable.lt_size sound.numbered
  have same := agrees.ids n o usable live
  cases h : ledger.id? n o with
  | none =>
    rw [h] at same
    rw [forget_of_unknown same]
    simp only [ask, h]
    exact ⟨trivial, agrees.quiet (quiet_same sound bound)⟩
  | some id =>
    rw [h] at same
    simp only [ask, h]
    obtain ⟨entry, -, -, answer⟩ := forget_of_known same
    refine ⟨by rw [answer], ⟨fun k p usable' alive => ?_, fun k p known => ?_, fun k => ?_, ?_⟩⟩
    · rw [forget_eq, open_apply] at usable'
      rw [forget_eq, isLive_apply] at alive
      rw [idOf_forget same sound bound live k alive, agrees.ids k p usable' alive, Ledger.forget]
    · rw [forget_eq, size_apply, place?_apply]
      simp only [Ledger.forget] at known
      split at known
      · exact absurd rfl known
      · exact agrees.known k p known
    · rw [minted_forget same bound, agrees.minted, Ledger.forget]
    · rw [notices_forget same, agrees.notices, Ledger.forget]

theorem Agrees.ask (agrees : ledger.Agrees w) (sound : w.Sound strong weak) {query : Query}
    (usable : w.Open query.registry) (live : w.heap.isLive query.object = true) :
    (w.ask query).2 = (ledger.ask query).2 ∧ (ledger.ask query).1.Agrees (w.ask query).1 := by
  obtain ⟨n, call, o⟩ := query
  cases call with
  | observe => exact agrees.observe sound usable live
  | lookup => exact ⟨agrees.ids n o usable live, agrees⟩
  | forget => exact agrees.forget sound usable live

end Ledger

namespace Scene

open Ledger

variable {ledger : Ledger} {s t : Scene} {calls : List CallRecord}

/-- A step is quiet, or a call about a held object. -/
theorem Step.quiet_or_ask (step : Step s calls t) (sound : s.Sound) :
    (calls = [] ∧ s.world.Quiet t.world) ∨
      ∃ query, s.world.Open query.registry ∧ query.object ∈ s.strong ∧
        calls = [⟨query, (s.world.ask query).2⟩] ∧ t.world = (s.world.ask query).1 := by
  cases step with
  | create alloc layout held other => exact Or.inl ⟨rfl, quiet_create sound held other⟩
  | openRegistry alloc valid => exact Or.inl ⟨rfl, quiet_createRegistry sound⟩
  | clone held => exact Or.inl ⟨rfl, quiet_retain (sound.counted.live_of_mem held)⟩
  | downgrade held => exact Or.inl ⟨rfl, quiet_retainWeak _ _⟩
  | cloneWeak held => exact Or.inl ⟨rfl, quiet_retainWeak _ _⟩
  | upgrade held live => exact Or.inl ⟨rfl, quiet_retain live⟩
  | drop o => exact Or.inl ⟨rfl, quiet_perform sound⟩
  | dropWeak o => exact Or.inl ⟨rfl, quiet_releaseWeak _ _⟩
  | link holder held linked =>
    exact Or.inl ⟨rfl, quiet_link (sound.counted.live_of_mem held) linked⟩
  | unlink holder content =>
    obtain ⟨block, hb, -⟩ := block_of_content content
    exact Or.inl ⟨rfl, quiet_setContent hb _ []⟩
  | purge usable => exact Or.inl ⟨rfl, quiet_purge sound (usable.lt_size sound.numbered)⟩
  | ask query usable held => exact Or.inr ⟨query, usable, held, rfl, rfl⟩

theorem Step.later (step : Step s calls t) (sound : s.Sound) : s.world.Later t.world := by
  rcases step.quiet_or_ask sound with ⟨-, quiet⟩ | ⟨query, -, -, -, after⟩
  · exact quiet.toLater
  · rw [after]
    exact later_ask s.world query

theorem Run.later (run : Run s calls t) (sound : s.Sound) : s.world.Later t.world := by
  induction run with
  | refl => exact Later.refl _
  | step before last ih => exact ih.trans (last.later (before.sound sound))

/-- The registry and the object of a call in a run were usable before the run, or are new. -/
theorem Run.asked (run : Run s calls t) (sound : s.Sound) {d : CallRecord} (mem : d ∈ calls) :
    (s.world.Open d.query.registry ∨ s.world.registries.size ≤ d.query.registry) ∧
      (s.world.heap.isLive d.query.object = true ∨ s.world.heap.place? d.query.object = none) := by
  induction run with
  | refl => cases mem
  | @step m t before calls run last ih =>
    rcases List.mem_append.mp mem with old | new
    · exact ih old
    · have reached := run.sound sound
      have later := run.later sound
      rcases last.quiet_or_ask reached with ⟨rfl, -⟩ | ⟨query, usable, held, rfl, -⟩
      · cases new
      · obtain rfl := List.mem_singleton.mp new
        exact ⟨later.usable _ usable, later.live _ (reached.counted.live_of_mem held)⟩

theorem Step.agrees (step : Step s calls t) (sound : s.Sound) (agrees : ledger.Agrees s.world) :
    ledger.Explains calls ∧ (ledger.after (calls.map CallRecord.query)).Agrees t.world := by
  rcases step.quiet_or_ask sound with ⟨rfl, quiet⟩ | ⟨query, usable, held, rfl, after⟩
  · exact ⟨rfl, agrees.quiet quiet⟩
  · have asked := agrees.ask sound usable (sound.counted.live_of_mem held)
    rw [after]
    exact ⟨congrArg (· :: []) asked.1, asked.2⟩

theorem Run.agrees (run : Run s calls t) (sound : s.Sound) (agrees : ledger.Agrees s.world) :
    ledger.Explains calls ∧ (ledger.after (calls.map CallRecord.query)).Agrees t.world := by
  induction run with
  | refl => exact ⟨rfl, agrees⟩
  | step before last ih =>
    obtain ⟨explained, agreed⟩ := ih
    have next := last.agrees (before.sound sound) agreed
    rw [List.map_append, after_append]
    exact ⟨explains_append.mpr ⟨explained, next.1⟩, next.2⟩

/-- Every reachable scene agrees with the ledger that got the same calls. -/
theorem Reachable.agrees {history : List CallRecord} (h : Reachable history s) :
    Explains {} history ∧ (after {} (history.map CallRecord.query)).Agrees s.world :=
  Run.agrees h sound_start agrees_start

/-- The ids that a registry has assigned are the first ones, in order. -/
theorem Reachable.assigned_eq {history : List CallRecord} (h : Reachable history s) (n : Nat) :
    s.world.assigned n =
      (List.range ((after {} (history.map CallRecord.query)).minted n)).map ObjectId.nth := by
  have start : Consecutive {} := fun k => rfl
  rw [World.assigned, h.agrees.2.notices]
  exact consecutive_after start _ n

theorem Reachable.length_assigned {history : List CallRecord} (h : Reachable history s) (n : Nat) :
    (s.world.assigned n).length = (after {} (history.map CallRecord.query)).minted n := by
  rw [h.assigned_eq, List.length_map, List.length_range]

/-- The counter of a registry shows how many ids it has given, as long as it has not run over. -/
theorem Reachable.minted_toNat {history : List CallRecord} {n : Nat} (h : Reachable history s)
    (few : (s.world.assigned n).length < 2 ^ 64) :
    (s.world.registry n).minted.toNat = (s.world.assigned n).length := by
  rw [h.length_assigned] at few ⊢
  rw [h.agrees.2.minted, UInt64.toNat_ofNat_of_lt' few]

/-- A run with at most one call assigns no id, or the one that the counter of the registry shows
before it, and answers with it. -/
theorem Reachable.assigned_run {history : List CallRecord} (h : Reachable history s)
    (run : Run s calls t) (single : calls.length ≤ 1) (n : Nat) :
    t.world.assigned n = s.world.assigned n ∨
      ∃ o, calls = [⟨⟨n, .observe, o⟩, some ⟨(s.world.registry n).minted⟩⟩] ∧
        t.world.assigned n = s.world.assigned n ++ [⟨(s.world.registry n).minted⟩] := by
  have before := h.agrees.2
  obtain ⟨explained, agreed⟩ := run.agrees h.sound before
  rw [World.assigned, World.assigned, agreed.notices, before.notices, before.minted]
  match calls, single with
  | [], _ => exact Or.inl rfl
  | [record], _ =>
    have told := (explains_cons.mp explained).1
    rcases assigned_ask (after {} (history.map CallRecord.query)) record.query n with
      same | ⟨observe, answer, next⟩
    · exact Or.inl same
    · refine Or.inr ⟨record.query.object, ?_, next⟩
      rw [← observe]
      exact congrArg (fun id => [(⟨record.query, id⟩ : CallRecord)]) (told.trans answer)

theorem Reachable.assigned_step {history : List CallRecord} (h : Reachable history s)
    (step : Step s calls t) (n : Nat) :
    t.world.assigned n = s.world.assigned n ∨
      ∃ o, calls = [⟨⟨n, .observe, o⟩, some ⟨(s.world.registry n).minted⟩⟩] ∧
        t.world.assigned n = s.world.assigned n ++ [⟨(s.world.registry n).minted⟩] := by
  refine h.assigned_run (Run.step (Run.refl s) step) ?_ n
  rcases step.quiet_or_ask h.sound with ⟨rfl, -⟩ | ⟨query, -, -, rfl, -⟩
  · exact Nat.zero_le 1
  · exact Nat.le_refl 1

/-- Two ids that a registry returns in a run are the same just when they are those of one object
that is not forgotten in between. -/
theorem Reachable.returns_iff {calls between rest : List CallRecord} {first second : CallRecord}
    {n : Nat} {a b : Object} {x y : ObjectId}
    (h : Reachable (calls ++ first :: (between ++ second :: rest)) s)
    (few : (s.world.assigned n).length < 2 ^ 64)
    (returned : first.Returns n a x) (returned' : second.Returns n b y) :
    x = y ↔ a = b ∧ ∀ record ∈ between, ¬record.Forgets n a := by
  have explained := h.agrees.1
  rw [explains_append, explains_cons] at explained
  obtain ⟨-, told, later⟩ := explained
  rw [h.length_assigned, List.map_append, after_append, List.map_cons, Ledger.after] at few
  -- The id is in the ledger after the first call, which is where the law starts.
  have known := (returns_cases told returned).1
  have proper : ((after {} (calls.map CallRecord.query)).ask first.query).1.Proper n := by
    have bound := minted_le_after ((after {} (calls.map CallRecord.query)).ask first.query).1
      ((between ++ second :: rest).map CallRecord.query) n
    have start := (proper_empty n).after (calls.map CallRecord.query ++ [first.query])
    rw [after_append] at start
    exact start (Nat.le_trans bound (Nat.le_of_lt few))
  exact Ledger.returns_iff proper known later (Nat.le_of_lt few) returned'

end Scene

end WeakIdentity
