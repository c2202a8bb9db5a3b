import WeakIdentity.Proofs.Registry.Journal
import WeakIdentity.Proofs.Scene.Contents
import WeakIdentity.Proofs.Scene.Growth

/-! The journal of a registry is faithful: a replay of the events of a run, from nothing else, gives
the numbers in each of them, and after each step the values of the counters. -/

namespace WeakIdentity

/-- The replay of the events of a registry that began with a threshold. -/
def Replay.of (threshold : UInt64) (events : List Event) : Replay :=
  readAll { watermark := threshold } events

namespace Registry

variable {r : Registry} {alive : Object → Bool} {usable : Prop} {call : Option Call}
  {change : Change} {journal : List Event}

/-- A registry that stays reports all that it does. -/
theorem Turn.journals (turn : r.Turn alive usable call change) (there : usable)
    (distinct : (r.entries.map Entry.address).Nodup) : change.Journals r := by
  cases turn with
  | lookup => exact journals_same r
  | observe address live => exact journals_observe alive address _ r
  | forget address live => exact journals_forget distinct address
  | purge => exact journals_sweep alive r
  | close gone => exact absurd there gone

theorem Turn.issued (turn : r.Turn alive usable call change) (issued : r.Issued journal)
    (few : (change.events.map Event.entered).sum + r.minted.toNat < 2 ^ 64) :
    change.registry.Issued (journal ++ change.events) := by
  cases turn with
  | lookup =>
    rw [List.append_nil]
    exact issued
  | observe address live => exact issued.observe few
  | forget address live => exact issued.forget address
  | purge =>
    refine issued.sublist (sublist_sweep alive r) rfl fun id told => ?_
    refine (List.mem_append.mp told).resolve_right fun new => ?_
    cases List.mem_singleton.mp new
  | close gone =>
    refine issued.sublist (List.nil_sublist _) rfl fun id told => ?_
    exact (List.mem_append.mp told).resolve_right List.not_mem_nil

theorem Turn.recorded (turn : r.Turn alive usable call change) (recorded : r.Recorded journal) :
    change.registry.Recorded (journal ++ change.events) := by
  cases turn with
  | lookup => exact recorded.sublist (List.Sublist.refl _) []
  | observe address live => exact recorded.observe alive address _
  | forget address live => exact recorded.sublist (sublist_forget r address) _
  | purge => exact recorded.sublist (sublist_sweep alive r) _
  | close gone => exact recorded.sublist (List.nil_sublist _) _

/-- How many entries are not there any more. -/
def lost (r after : Registry) : Nat := (r.entries.filter fun entry => entry ∉ after.entries).length

theorem lost_sweep (alive : Object → Bool) (r : Registry) :
    r.lost (r.sweep alive).1.registry = (r.sweep alive).2 := by
  rw [count_sweep, lost]
  refine congrArg List.length (List.filter_congr fun entry mem => ?_)
  rw [Bool.eq_iff_iff, decide_eq_true_iff, mem_sweep, Bool.not_eq_true', ← Bool.not_eq_true]
  exact not_congr (and_iff_right mem)

/-- A new entry replaces no other. -/
theorem lost_insert {address : Nat} (unknown : r.find? address = none) {room : Registry}
    (id : ObjectId) (object : Object) (minted : UInt64) :
    r.lost { room with entries := ⟨address, id, object⟩ :: room.entries, minted } =
      r.lost room := by
  refine congrArg List.length (List.filter_congr fun entry mem => ?_)
  have elsewhere := find?_eq_none_iff.mp unknown entry mem
  have other : entry ≠ ⟨address, id, object⟩ := by
    rintro rfl
    exact elsewhere rfl
  rw [decide_eq_decide, List.mem_cons, or_iff_right other]

/-- What a registry reports in a turn. A sweep comes first, and reports what the turn removes. -/
inductive Reports (alive : Object → Bool) (r : Registry) (change : Change) : Option Call → Prop
  | nothing {call : Option Call} (events : change.events = []) : Reports alive r change call
  | forgotten {entry : Entry} (mem : entry ∈ r.entries)
      (events : change.events = [.forget entry.id]) : Reports alive r change (some .forget)
  | assigned {call : Option Call} {id : ObjectId} {entries : Nat}
      (events : change.events = [.assign id entries]) : Reports alive r change call
  | swept {call : Option Call} {rest : List Event}
      (new : ∀ event ∈ rest, ∃ id entries, event = .assign id entries)
      (events : change.events = .sweep (r.lost change.registry) (r.stats alive).live
        (r.sweep alive).1.registry.watermark :: rest) : Reports alive r change call

theorem events_sweep (alive : Object → Bool) (r : Registry) :
    (r.sweep alive).1.events = [.sweep (r.lost (r.sweep alive).1.registry) (r.stats alive).live
      (r.sweep alive).1.registry.watermark] := by
  rw [lost_sweep]
  rfl

theorem Turn.reports (turn : r.Turn alive usable call change) : r.Reports alive change call := by
  cases turn with
  | lookup => exact .nothing rfl
  | purge => exact .swept (List.forall_mem_nil _) (events_sweep alive r)
  | close gone => exact .nothing rfl
  | forget address live =>
    cases found : r.find? address with
    | none =>
      rw [forget_of_unknown found]
      exact .nothing rfl
    | some entry =>
      rw [forget_of_found found]
      exact .forgotten (List.mem_of_find?_eq_some found) rfl
  | @observe address object live =>
    cases found : r.find? address with
    | some entry =>
      rw [observe_of_found found]
      exact .nothing rfl
    | none =>
      rw [observe_of_unknown found]
      by_cases full : r.watermark.toNat ≤ r.size
      · rw [makeRoom_of_le full]
        have new : ∀ event ∈ [Event.assign ⟨r.minted⟩ ((r.sweep alive).1.registry.size + 1)],
            ∃ id entries, event = .assign id entries := List.forall_mem_singleton.mpr ⟨_, _, rfl⟩
        refine .swept new ?_
        dsimp only
        rw [lost_insert found, events_sweep]
        rfl
      · rw [makeRoom_of_lt (Nat.not_le.mp full)]
        exact .assigned rfl

/-- An id that is reported as forgotten had an entry, and the call reports nothing else. -/
theorem Turn.of_forget (turn : r.Turn alive usable call change) {id : ObjectId}
    (mem : .forget id ∈ change.events) :
    call = some .forget ∧ change.events = [.forget id] ∧ ∃ entry ∈ r.entries, entry.id = id := by
  cases turn.reports with
  | nothing events =>
    rw [events] at mem
    cases mem
  | assigned events =>
    rw [events] at mem
    cases List.mem_singleton.mp mem
  | @forgotten entry there events =>
    rw [events] at mem ⊢
    obtain rfl := Event.forget.inj (List.mem_singleton.mp mem)
    exact ⟨rfl, rfl, entry, there, rfl⟩
  | swept new events =>
    rw [events] at mem
    rcases List.mem_cons.mp mem with sweep | later
    · cases sweep
    · obtain ⟨_, _, assign⟩ := new _ later
      cases assign

theorem Turn.of_sweep (turn : r.Turn alive usable call change) (small : r.size < 2 ^ 63)
    {reclaimed live : Nat} {watermark : UInt64}
    (mem : .sweep reclaimed live watermark ∈ change.events) :
    watermark.toNat = max r.threshold.toNat (2 * live) := by
  cases turn.reports with
  | nothing events =>
    rw [events] at mem
    cases mem
  | assigned events =>
    rw [events] at mem
    cases List.mem_singleton.mp mem
  | forgotten there events =>
    rw [events] at mem
    cases List.mem_singleton.mp mem
  | swept new events =>
    rw [events] at mem
    rcases List.mem_cons.mp mem with sweep | later
    · obtain ⟨-, rfl, rfl⟩ := Event.sweep.inj sweep
      exact watermark_sweep alive r small
    · obtain ⟨_, _, assign⟩ := new _ later
      cases assign

end Registry

namespace Scene

open World

variable {s t : Scene} {path : List Transition} {n : Nat}

/-! ### Journals of paths -/

theorem Path.eventsOf_eq (h : Path s path t) (sound : s.Sound) (n : Nat) :
    t.world.eventsOf n = s.world.eventsOf n ++ path.flatMap fun m => m.events n := by
  induction path using List.reverseRecOn generalizing t with
  | nil =>
    cases h.eq_of_nil
    rw [List.flatMap_nil, List.append_nil]
  | append_singleton path m ih =>
    have reported := h.eventsOf sound (List.mem_append_right _ List.mem_cons_self) n
    obtain ⟨first, -, rfl⟩ := h.last
    rw [reported, ih first, List.flatMap_append, List.flatMap_singleton, List.append_assoc]

/-- A registry that is not there yet has no journal. -/
theorem Path.silent (h : Path {} path s) (beyond : s.world.registries.size ≤ n) :
    s.world.eventsOf n = [] := by
  rw [h.eventsOf_eq sound_start, List.append_eq_nil_iff, List.flatMap_eq_nil_iff]
  exact ⟨rfl, fun m mem => (h.unopened sound_start beyond mem).2⟩

/-- Each event of a journal was reported in some transition, after the events before it. -/
theorem Path.reported (h : Path {} path s) {before after : List Event} {event : Event}
    (split : s.world.eventsOf n = before ++ event :: after) :
    ∃ first m rest earlier later, path = first ++ m :: rest ∧
      m.events n = earlier ++ event :: later ∧
      before = m.before.world.eventsOf n ++ earlier := by
  induction path using List.reverseRecOn generalizing s after with
  | nil =>
    cases h.eq_of_nil
    cases before <;> cases split
  | append_singleton path m ih =>
    have reported := h.eventsOf sound_start (List.mem_append_right _ List.mem_cons_self) n
    obtain ⟨first, -, rfl⟩ := h.last
    rw [reported] at split
    rcases List.append_eq_append_iff.mp split with ⟨earlier, rfl, new⟩ | ⟨middle, old, new⟩
    · exact ⟨path, m, [], earlier, after, rfl, new, rfl⟩
    · cases middle with
      | nil => exact ⟨path, m, [], [], after, rfl, new.symm, by simpa using old.symm⟩
      | cons head tail =>
        obtain rfl : event = head := (List.cons.inj new).1
        obtain ⟨begun, k, rest, earlier, later, rfl, there, told⟩ := ih first old
        exact ⟨begun, k, rest ++ [m], earlier, later, by simp, there, told⟩

/-- A registry that reports something is there and takes a turn. -/
theorem Path.turn_of_event (h : Path s path t) (sound : s.Sound) {m : Transition} (mem : m ∈ path)
    (told : m.events n ≠ []) :
    ∃ change, n < m.before.world.registries.size ∧
      (m.before.world.registry n).Turn m.after.world.heap.isLive (m.after.world.Open n)
        (callTo n m.calls) change ∧
      m.after.world.registry n = change.registry ∧ m.events n = change.events := by
  have turns := h.turns sound mem n
  generalize callTo n m.calls = call at turns ⊢
  cases turns with
  | rest registry events =>
    exact absurd (Transition.events_of_eq (by rw [events, List.append_nil])) told
  | opened valid new size registry events =>
    exact absurd (Transition.events_of_eq (by rw [events, List.append_nil])) told
  | turn bound turn registry events =>
    exact ⟨_, bound, turn, registry, Transition.events_of_eq events⟩

/-- The journal is acceptable, and its replay gives the counters. -/
theorem Path.journaled (h : Path {} path s)
    (usable : s.world.Open n ∨ s.world.registries.size ≤ n) :
    Replay.Accepts { watermark := (s.world.registry n).threshold } (s.world.eventsOf n) ∧
      Replay.of (s.world.registry n).threshold (s.world.eventsOf n) =
        (s.world.registry n).counters := by
  induction path using List.reverseRecOn generalizing s with
  | nil =>
    cases h.eq_of_nil
    rw [registry_start]
    exact ⟨trivial, rfl⟩
  | append_singleton path m ih =>
    have turns := h.turns sound_start (List.mem_append_right _ List.mem_cons_self) n
    have before := ih h.last.1 (h.usable_before usable)
    obtain ⟨first, step, rfl⟩ := h.last
    have sound := first.sound sound_start
    generalize callTo n m.calls = call at turns
    cases turns with
    | rest registry events =>
      rw [registry, events]
      exact before
    | opened valid new size registry events =>
      rw [registry, events, first.silent (Nat.le_of_eq new.symm)]
      exact ⟨trivial, rfl⟩
    | turn bound turn registry events =>
      have grown := (step.later sound).registries
      have there : m.after.world.Open n := usable.resolve_right (by omega)
      have journals := turn.journals there (sound.counted.keyed n).distinct
      have kept := turn.growth.threshold
      rw [registry, events, kept, Replay.accepts_append, Replay.of, Replay.readAll_append]
      obtain ⟨accepted, replayed⟩ := before
      rw [Replay.of] at replayed
      rw [replayed]
      exact ⟨⟨accepted, journals.accepted⟩, journals.replayed⟩

/-- What holds of a registry and its journal when it begins, and is kept by its turns, holds after
every run. -/
theorem Path.turn_induction {P : Registry → List Event → Prop} (h : Path {} path s)
    (opened : ∀ options : Options, P (.ofOptions options) [])
    (turned : ∀ {first : List Transition} {m : Scene} {alive : Object → Bool} {usable : Prop}
      {call : Option Call} {change : Change}, Path {} first m →
      (m.world.registry n).Turn alive usable call change →
      P (m.world.registry n) (m.world.eventsOf n) →
      P change.registry (m.world.eventsOf n ++ change.events)) :
    P (s.world.registry n) (s.world.eventsOf n) := by
  induction path using List.reverseRecOn generalizing s with
  | nil =>
    cases h.eq_of_nil
    rw [registry_start]
    exact opened {}
  | append_singleton path m ih =>
    have turns := h.turns sound_start (List.mem_append_right _ List.mem_cons_self) n
    obtain ⟨first, -, rfl⟩ := h.last
    generalize callTo n m.calls = call at turns
    cases turns with
    | rest registry events =>
      rw [registry, events]
      exact ih first
    | opened valid new size registry events =>
      rw [registry, events, first.silent (Nat.le_of_eq new.symm)]
      exact opened _
    | turn bound turn registry events =>
      rw [registry, events]
      exact turned first turn (ih first)

theorem Path.recorded (h : Path {} path s) (n : Nat) :
    (s.world.registry n).Recorded (s.world.eventsOf n) :=
  h.turn_induction (fun _ => nofun) fun _ turn before => turn.recorded before

/-- As long as the counter has not run over, the ids in a table are all different, and none of them
has been forgotten. -/
theorem Path.issued (h : Path {} path s) (few : (s.world.assigned n).length < 2 ^ 64) :
    (s.world.registry n).Issued (s.world.eventsOf n) := by
  rw [assigned_eq_events] at few
  refine h.turn_induction
    (P := fun r journal => (journal.filterMap Event.assigned?).length < 2 ^ 64 → r.Issued journal)
    (fun _ _ => ⟨nofun, List.nodup_nil, nofun, nofun⟩) ?_ few
  intro first m alive usable call change reached turn before few
  rw [List.filterMap_append, List.length_append, ← Event.sum_entered change.events] at few
  have counter := Reachable.minted_toNat (n := n) reached.run (by rw [assigned_eq_events]; omega)
  rw [assigned_eq_events] at counter
  exact turn.issued (before (by omega)) (by omega)

/-! ### Observations -/

/-- What an observation reports: nothing if the object has an id, and otherwise the new id, after a
sweep just if the table has reached its watermark. -/
theorem Path.events_observe (h : Path s path t) (sound : s.Sound) {m : Transition} (mem : m ∈ path)
    {o : Object} {answer : Option ObjectId} (asked : m.calls = [⟨⟨n, .observe, o⟩, answer⟩])
    {r : Registry} (now : m.before.world.registry n = r) :
    (m.before.world.idOf n o ≠ none → m.events n = []) ∧
    (m.before.world.idOf n o = none → r.size < r.watermark.toNat →
      m.events n = [.assign ⟨r.minted⟩ (r.size + 1)]) ∧
    (m.before.world.idOf n o = none → r.watermark.toNat ≤ r.size →
      ∃ reclaimed live watermark, m.events n =
        [.sweep reclaimed live watermark, .assign ⟨r.minted⟩ (live + 1)]) := by
  subst now
  obtain ⟨before, after, rfl⟩ := List.append_of_mem mem
  obtain ⟨first, step, -⟩ := h.split
  rw [asked] at step
  obtain ⟨-, observed⟩ := step.observes (first.sound sound)
  refine ⟨fun known => ?_, fun unknown room => ?_, fun unknown full => ?_⟩
  · refine Transition.events_of_eq ?_
    rw [observed, eventsOf_observe_known known]
  · have told := eventsOf_observe_unknown unknown
    rw [← observed, Registry.makeRoom_of_lt room] at told
    exact Transition.events_of_eq told
  · have told := eventsOf_observe_unknown unknown
    rw [← observed, Registry.makeRoom_of_le full] at told
    exact ⟨_, _, _, Transition.events_of_eq told⟩

/-! ### The journal -/

theorem Path.threshold_before (h : Path {} path s) {m : Transition} (mem : m ∈ path)
    (bound : n < m.before.world.registries.size) :
    (m.before.world.registry n).threshold = (s.world.registry n).threshold := by
  obtain ⟨before, after, rfl⟩ := List.append_of_mem mem
  obtain ⟨first, step, rest⟩ := h.split
  have whole := ((Path.refl m.before).step step).trans rest
  exact (whole.threshold (first.sound sound_start) bound).symm

/-- A sweep reports the watermark that it sets. -/
theorem Path.watermark_reported (h : Path {} path s) (small : Small n path) {reclaimed live : Nat}
    {watermark : UInt64} (told : .sweep reclaimed live watermark ∈ s.world.eventsOf n) :
    watermark.toNat = max (s.world.registry n).threshold.toNat (2 * live) := by
  obtain ⟨before, after, split⟩ := List.append_of_mem told
  obtain ⟨first, m, rest, earlier, later, rfl, there, -⟩ := h.reported split
  have mem : m ∈ first ++ m :: rest := List.mem_append_right _ List.mem_cons_self
  obtain ⟨change, bound, turn, -, events⟩ :=
    h.turn_of_event (n := n) sound_start mem (by simp [there])
  have swept : .sweep reclaimed live watermark ∈ change.events := by
    rw [← events, there]
    exact List.mem_append_right _ List.mem_cons_self
  rw [← h.threshold_before mem bound]
  exact turn.of_sweep (h.split.1.size_lt small.of_append) swept

/-- An id that is reported as forgotten was reported as assigned, and not as forgotten before. -/
theorem Path.forgotten_reported (h : Path {} path s) {before after : List Event} {id : ObjectId}
    (split : s.world.eventsOf n = before ++ .forget id :: after) :
    id ∈ before.filterMap Event.assigned? ∧
      ((before.filterMap Event.assigned?).length < 2 ^ 64 → .forget id ∉ before) := by
  obtain ⟨first, m, rest, earlier, later, rfl, there, told⟩ := h.reported split
  obtain ⟨change, -, turn, -, events⟩ := h.turn_of_event (n := n) sound_start
    (List.mem_append_right _ List.mem_cons_self) (by simp [there])
  rw [events] at there
  have forgot : .forget id ∈ change.events := by
    rw [there]
    exact List.mem_append_right _ List.mem_cons_self
  obtain ⟨-, alone, entry, mem, rfl⟩ := turn.of_forget forgot
  -- The event is the only one of its transition, so that the journal before it is that of the path
  -- before the transition.
  obtain rfl : earlier = [] := by
    rw [alone] at there
    exact (List.append_eq_singleton_iff.mp there.symm).elim And.left fun other => by simp at other
  rw [List.append_nil] at told
  subst told
  have reached := h.split.1
  refine ⟨reached.recorded n entry mem, fun few => ?_⟩
  rw [← assigned_eq_events] at few
  exact (reached.issued few).unforgotten entry mem

/-- The replay of the journal at an observation gives the counters. -/
theorem Path.replayed_before (h : Path {} path s) {m : Transition} (mem : m ∈ path) {o : Object}
    {answer : Option ObjectId} (asked : m.calls = [⟨⟨n, .observe, o⟩, answer⟩]) :
    Replay.of (s.world.registry n).threshold (m.before.world.eventsOf n) =
      (m.before.world.registry n).counters := by
  have begun := fun bound => h.threshold_before (n := n) mem bound
  obtain ⟨before, after, rfl⟩ := List.append_of_mem mem
  obtain ⟨first, step, -⟩ := h.split
  have sound := first.sound sound_start
  rw [asked] at step
  have usable := (step.observes sound).1
  rw [← begun (usable.lt_size sound.numbered)]
  exact (first.journaled (Or.inl usable)).2

theorem Path.fits_before (h : Path {} path s) {m : Transition} (mem : m ∈ path)
    (small : Small n path) :
    (m.before.world.registry n).size ≤ (m.before.world.registry n).watermark.toNat := by
  obtain ⟨before, after, rfl⟩ := List.append_of_mem mem
  exact (h.split.1.spaced small.of_append).fits

/-- The journal of a registry is faithful. With the threshold of the options with which the registry
was made, a replay from the beginning gives at each event its numbers, at each observation what will
be reported, and at the end the counters. -/
theorem journal_faithful (h : Path {} path s) (usable : s.world.Open n) (small : Small n path)
    {threshold : UInt64} (begun : (s.world.registry n).threshold = threshold) :
    (∃ options, OpenedWith path n options) ∧
    (∀ options, OpenedWith path n options → threshold = options.sweepThreshold) ∧
    (∀ before id entries after, s.world.eventsOf n = before ++ .assign id entries :: after →
      id = ⟨(Replay.of threshold before).minted⟩ ∧
      entries = (Replay.of threshold (before ++ [.assign id entries])).entries) ∧
    (∀ before reclaimed live watermark after,
      s.world.eventsOf n = before ++ .sweep reclaimed live watermark :: after →
      reclaimed + live = (Replay.of threshold before).entries ∧
      watermark.toNat = max threshold.toNat (2 * live)) ∧
    (∀ before id after, s.world.eventsOf n = before ++ .forget id :: after →
      id ∈ before.filterMap Event.assigned? ∧
      ((before.filterMap Event.assigned?).length < 2 ^ 64 → .forget id ∉ before)) ∧
    (∀ m ∈ path, ∀ o answer, m.calls = [⟨⟨n, .observe, o⟩, answer⟩] →
      ∀ replay, Replay.of threshold (m.before.world.eventsOf n) = replay →
      replay.entries ≤ replay.watermark.toNat ∧
      (m.before.world.idOf n o ≠ none → m.events n = []) ∧
      (m.before.world.idOf n o = none → replay.entries < replay.watermark.toNat →
        m.events n = [.assign ⟨replay.minted⟩ (replay.entries + 1)]) ∧
      (m.before.world.idOf n o = none → replay.entries = replay.watermark.toNat →
        ∃ reclaimed live watermark, m.events n =
          [.sweep reclaimed live watermark, .assign ⟨replay.minted⟩ (live + 1)])) ∧
    (∀ replay, Replay.of threshold (s.world.eventsOf n) = replay →
      s.world.stats n =
        { entries := replay.entries, live := (s.world.stats n).live, minted := replay.minted,
          reclaimed := replay.reclaimed, sweeps := replay.sweeps } ∧
      (s.world.registry n).watermark = replay.watermark) := by
  subst begun
  obtain ⟨accepted, replayed⟩ := h.journaled (Or.inl usable)
  refine ⟨h.exists_openedWith (usable.lt_size (h.sound sound_start).numbered),
    fun _ => h.threshold_of_openedWith, ?_, ?_,
    fun before id after split => h.forgotten_reported split, ?_, ?_⟩
  · intro before id entries after split
    rw [split] at accepted
    have admitted := accepted.admits
    rw [Replay.of, Replay.of, Replay.readAll_append]
    exact admitted
  · intro before reclaimed live watermark after split
    have told : .sweep reclaimed live watermark ∈ s.world.eventsOf n := by
      rw [split]
      exact List.mem_append_right _ List.mem_cons_self
    rw [split] at accepted
    exact ⟨accepted.admits, h.watermark_reported small told⟩
  · rintro m mem o answer asked replay rfl
    have told := h.events_observe sound_start mem asked rfl
    rw [h.replayed_before mem asked]
    exact ⟨h.fits_before mem small, told.1, told.2.1,
      fun unknown full => told.2.2 unknown (Nat.le_of_eq full.symm)⟩
  · rintro replay rfl
    rw [replayed]
    exact ⟨rfl, rfl⟩

/-- A registry with the threshold one, for whose second entry a sweep has to make room. The first
one is looked up again and forgotten, and the object of the second is destroyed before a purge. -/
theorem exists_path_audited :
    ∃ path s, Path {} path s ∧ s.world.Open 1 ∧ Small 1 path ∧
      (s.world.registry 1).threshold = 1 ∧
      s.world.eventsOf 1 = [.assign (.nth 0) 1, .sweep 0 1 2, .assign (.nth 1) 2,
        .forget (.nth 0), .sweep 1 0 1] := by
  have held : ∀ (strong : Multiset Object), ∀ o ∈ Content.plain.owned, o ∈ strong := by
    simp [Content.owned]
  have usable : ∀ {w : World}, w.heap.isLive ⟨0⟩ = true → w.registryNumber? ⟨0⟩ = some 1 →
      w.Open 1 := fun live number => Or.inr ⟨⟨0⟩, live, number⟩
  have opened : Path {} _ _ :=
    (Path.refl {}).step
      (Step.openRegistry .beyond (show Options.validate ⟨0, 1⟩ = .ok () from rfl) rfl)
  have first := opened.step (Step.create .beyond (.aligned 1 0) (held _) (by simp))
  have observed := first.step (Step.ask ⟨1, .observe, ⟨1⟩⟩
    (usable (by decide +kernel) (by decide +kernel)) (Multiset.mem_cons_self _ _))
  have second := observed.step (Step.create .beyond (.aligned 1 0) (held _) (by simp))
  have swept := second.step (Step.ask ⟨1, .observe, ⟨2⟩⟩
    (usable (by decide +kernel) (by decide +kernel)) (Multiset.mem_cons_self _ _))
  have again := swept.step (Step.ask ⟨1, .observe, ⟨1⟩⟩
    (usable (by decide +kernel) (by decide +kernel))
    (Multiset.mem_cons_of_mem (Multiset.mem_cons_self _ _)))
  have forgotten := again.step (Step.ask ⟨1, .forget, ⟨1⟩⟩
    (usable (by decide +kernel) (by decide +kernel))
    (Multiset.mem_cons_of_mem (Multiset.mem_cons_self _ _)))
  have dropped := forgotten.step (Step.drop ⟨2⟩)
  have purged := dropped.step (Step.purge
    (show World.Open _ 1 from usable (by decide +kernel) (by decide +kernel)))
  exact ⟨_, _, purged, usable (by decide +kernel) (by decide +kernel), by decide +kernel,
    by decide +kernel, by decide +kernel⟩

/-- The replay of the five events shows that both entries were removed, one of them by a sweep. -/
theorem journal_faithful_audited :
    ∃ path s, Path {} path s ∧ s.world.Open 1 ∧ Small 1 path ∧
      (s.world.registry 1).threshold = 1 ∧
      Replay.of 1 (s.world.eventsOf 1) = ⟨0, 2, 1, 2, 1⟩ ∧
      s.world.stats 1 = ⟨0, (s.world.stats 1).live, 2, 1, 2⟩ ∧
      (2 : UInt64).toNat = max (1 : UInt64).toNat (2 * 1) := by
  obtain ⟨path, s, h, usable, small, begun, journal⟩ := exists_path_audited
  obtain ⟨-, -, -, sweeps, -, -, counters⟩ := journal_faithful h usable small begun
  have replayed : Replay.of 1 (s.world.eventsOf 1) = ⟨0, 2, 1, 2, 1⟩ := by
    rw [journal]
    decide
  exact ⟨path, s, h, usable, small, begun, replayed, (counters _ replayed).1,
    (sweeps [.assign (.nth 0) 1] 0 1 2 _ journal).2⟩

end Scene

end WeakIdentity
