import WeakIdentity.Proofs.Scene.Journal

/-! Entries are conserved: every id that a registry assigned is still in its table, or was swept, or
was forgotten. The journal is compared with the calls and with the destructions of the run, so that
each counter is the number of what it counts. -/

namespace WeakIdentity

/-- Whether the call makes a registry remove the entry of an object. -/
def CallRecord.unregisters (d : CallRecord) (n : Nat) : Bool :=
  d.query.registry = n && d.query.call = .forget && d.answer.isSome

namespace Registry

variable {r : Registry} {alive : Object → Bool} {usable : Prop} {call : Option Call}
  {change : Change}

theorem sum_assigned {weight : Event → Nat} (none : ∀ id entries, weight (.assign id entries) = 0)
    {events : List Event} (new : ∀ event ∈ events, ∃ id entries, event = .assign id entries) :
    (events.map weight).sum = 0 := by
  refine List.sum_eq_zero fun k mem => ?_
  obtain ⟨event, there, rfl⟩ := List.mem_map.mp mem
  obtain ⟨id, entries, rfl⟩ := new event there
  exact none id entries

/-- A turn reports one sweep at most, and what it removes. -/
theorem Turn.sweeps_reported (turn : r.Turn alive usable call change) :
    (change.events.map Event.swept).sum = (if change.events.any Event.isSweep then 1 else 0) ∧
      (change.events.map Event.reclaimed).sum =
        if change.events.any Event.isSweep then r.lost change.registry else 0 := by
  cases turn.reports with
  | nothing events =>
    rw [events]
    exact ⟨rfl, rfl⟩
  | forgotten mem events =>
    rw [events]
    exact ⟨rfl, rfl⟩
  | assigned events =>
    rw [events]
    exact ⟨rfl, rfl⟩
  | swept new events =>
    have sweeps : change.events.any Event.isSweep = true := by
      rw [events, List.any_cons]
      rfl
    rw [sweeps, events, List.map_cons, List.map_cons, List.sum_cons, List.sum_cons,
      sum_assigned (fun _ _ => rfl) new, sum_assigned (fun _ _ => rfl) new]
    exact ⟨rfl, rfl⟩

/-- A registry that gets no call to forget reports no forgotten id. -/
theorem Turn.forgotten_reported (turn : r.Turn alive usable call change)
    (other : call ≠ some .forget) : (change.events.map Event.forgotten).sum = 0 := by
  refine List.sum_eq_zero fun k mem => ?_
  obtain ⟨event, there, rfl⟩ := List.mem_map.mp mem
  cases event with
  | assign id entries => rfl
  | sweep reclaimed live watermark => rfl
  | forget id => exact absurd (turn.of_forget there).1 other

end Registry

namespace Scene

open World

variable {s t : Scene} {path : List Transition} {n : Nat} {calls : List CallRecord}

namespace Transition

/-- How many entries a registry loses in the step. -/
def removed (m : Transition) (n : Nat) : Nat :=
  (m.before.world.registry n).lost (m.after.world.registry n)

end Transition

/-! ### Counting -/

/-- How many calls made a registry remove the entry of an object. -/
def unregistrations (n : Nat) (path : List Transition) : Nat :=
  (history path).countP (CallRecord.unregisters · n)

open Classical in
/-- How often a registry was purged. -/
noncomputable def purges (n : Nat) (path : List Transition) : Nat :=
  path.countP (Transition.Purges · n)

open Classical in
/-- How often a registry had to make room. -/
noncomputable def roomMakings (n : Nat) (path : List Transition) : Nat :=
  path.countP (Transition.MakesRoom · n)

open Classical in
/-- How many entries a registry lost when it was purged or had to make room. -/
noncomputable def removals (n : Nat) (path : List Transition) : Nat :=
  (path.map fun m => if m.Purges n ∨ m.MakesRoom n then m.removed n else 0).sum

/-- A sum over the journal is the sum over the transitions. -/
theorem Path.sum_events (h : Path {} path s) {weight : Event → Nat} {share : Transition → Nat}
    (told : ∀ m ∈ path, ((m.events n).map weight).sum = share m) :
    ((s.world.eventsOf n).map weight).sum = (path.map share).sum := by
  have begun : ({} : Scene).world.eventsOf n = [] := rfl
  rw [h.eventsOf_eq sound_start, begun, List.nil_append, List.map_flatMap, List.flatMap_def,
    List.sum_flatten, List.map_map]
  exact congrArg List.sum (List.map_congr_left told)

theorem Path.sweeps_reported (h : Path s path t) (sound : s.Sound) {m : Transition}
    (mem : m ∈ path) :
    ((m.events n).map Event.swept).sum = (if m.sweeps n then 1 else 0) ∧
      ((m.events n).map Event.reclaimed).sum = if m.sweeps n then m.removed n else 0 := by
  by_cases silent : m.events n = []
  · simp [Transition.sweeps, silent]
  · obtain ⟨change, -, turn, registry, events⟩ := h.turn_of_event sound mem silent
    rw [Transition.sweeps, Transition.removed, registry, events]
    exact turn.sweeps_reported

theorem Path.forgotten_eq (h : Path s path t) (sound : s.Sound) {m : Transition} (mem : m ∈ path) :
    ((m.events n).map Event.forgotten).sum = m.calls.countP (CallRecord.unregisters · n) := by
  have unasked : callTo n m.calls ≠ some .forget →
      ((m.events n).map Event.forgotten).sum = 0 := by
    intro other
    by_cases silent : m.events n = []
    · rw [silent]
      rfl
    · obtain ⟨change, -, turn, -, events⟩ := h.turn_of_event sound mem silent
      rw [events]
      exact turn.forgotten_reported other
  obtain ⟨before, after, rfl⟩ := List.append_of_mem mem
  obtain ⟨first, step, -⟩ := h.split
  rcases step.quiet_or_ask (first.sound sound) with ⟨none, -⟩ | ⟨⟨k, call, o⟩, -, -, asked, after⟩
  · rw [unasked (by simp [none, callTo]), none]
    rfl
  · by_cases forgets : k = n ∧ call = .forget
    · obtain ⟨rfl, rfl⟩ := forgets
      have told := eventsOf_forget m.before.world k k o
      rw [if_pos rfl] at told
      rw [Transition.events_of_eq ((congrArg (World.eventsOf · k) after).trans told), asked]
      cases known : m.before.world.idOf k o with
      | none => simp [CallRecord.unregisters, World.ask, forget_of_unknown known]
      | some id =>
        obtain ⟨entry, -, -, forgotten⟩ := forget_of_known known
        simp [CallRecord.unregisters, World.ask, forgotten, Event.forgotten]
    · have kept : ∀ answer, CallRecord.unregisters ⟨⟨k, call, o⟩, answer⟩ n = false := by
        intro answer
        simp only [CallRecord.unregisters, Bool.and_eq_false_iff, decide_eq_false_iff_not]
        exact Or.inl (not_and_or.mp forgets)
      rw [unasked, asked, List.countP_singleton, kept]
      · rfl
      · rw [asked, callTo_singleton]
        split
        · next same => exact fun both => forgets ⟨same, Option.some.inj both⟩
        · decide

theorem sum_indicator {p : Transition → Prop} [DecidablePred p] (path : List Transition) :
    (path.map fun m => if p m then 1 else 0).sum = path.countP p := by
  induction path with
  | nil => rfl
  | cons m rest ih =>
    rw [List.map_cons, List.sum_cons, ih, List.countP_cons, Nat.add_comm]
    simp

section Totals

variable (h : Path {} path s) (n : Nat)
include h

theorem Path.total_forgotten :
    ((s.world.eventsOf n).map Event.forgotten).sum = unregistrations n path := by
  rw [h.sum_events fun m mem => h.forgotten_eq sound_start mem, unregistrations, history,
    List.countP_flatMap]
  rfl

theorem Path.total_swept :
    ((s.world.eventsOf n).map Event.swept).sum = purges n path + roomMakings n path := by
  classical
  have told : ∀ m ∈ path, ((m.events n).map Event.swept).sum =
      (if m.Purges n then 1 else 0) + if m.MakesRoom n then 1 else 0 := by
    intro m mem
    rw [(h.sweeps_reported sound_start mem).1, if_congr (h.sweeps_iff sound_start mem) rfl rfl]
    -- A purge is not a call, so that no transition counts twice.
    have apart : m.Purges n → ¬m.MakesRoom n := by
      rintro ⟨none, -⟩ ⟨o, answer, asked, -⟩
      rw [none] at asked
      cases asked
    by_cases purged : m.Purges n
    · simp [purged, apart purged]
    · simp [purged]
  rw [h.sum_events told, List.sum_map_add, sum_indicator, sum_indicator]
  rfl

theorem Path.total_reclaimed :
    ((s.world.eventsOf n).map Event.reclaimed).sum = removals n path := by
  classical
  refine (h.sum_events fun m mem => ?_).trans rfl
  rw [(h.sweeps_reported sound_start mem).2, if_congr (h.sweeps_iff sound_start mem) rfl rfl]

end Totals

/-- The journal is balanced: every entry made is still in the table, was swept or was forgotten. -/
theorem Path.balance (h : Path {} path s) (usable : s.world.Open n) :
    (s.world.assigned n).length =
      (s.world.registry n).size + removals n path + unregistrations n path := by
  obtain ⟨accepted, replayed⟩ := h.journaled (Or.inl usable)
  have entries : (Replay.of _ (s.world.eventsOf n)).entries = _ := congrArg Replay.entries replayed
  have balance := accepted.balance
  rw [← Replay.of, entries, Event.sum_entered, ← assigned_eq_events, h.total_reclaimed,
    h.total_forgotten, Nat.zero_add] at balance
  exact balance

/-- The two counters that sweeps move show what there was to count, up to the size of a word. -/
theorem Path.counters (h : Path {} path s) (usable : s.world.Open n) :
    (s.world.registry n).reclaimed = .ofNat (removals n path) ∧
      (s.world.registry n).sweeps = .ofNat (purges n path + roomMakings n path) := by
  have replayed := (h.journaled (Or.inl usable)).2
  constructor
  · have read : _ = (s.world.registry n).reclaimed := congrArg Replay.reclaimed replayed
    rw [← read, Replay.of, Replay.reclaimed_readAll, h.total_reclaimed, UInt64.zero_add]
  · have read : _ = (s.world.registry n).sweeps := congrArg Replay.sweeps replayed
    rw [← read, Replay.of, Replay.sweeps_readAll, h.total_swept, UInt64.zero_add]

/-- Entries are conserved. Every id that a registry assigned is in its table, or was removed by a
sweep, or was forgotten by a call that returned it. The counters show how many entries were removed
by sweeps, and how many purges and insertions into a full table there were. The ids in the table are
below the counter and all different. So a sweep finds no more live entries than there are, and what
it removes does not overflow its counter. -/
theorem entries_conserved (h : Path {} path s) (usable : s.world.Open n)
    (few : (s.world.assigned n).length < 2 ^ 64)
    (rare : purges n path + roomMakings n path < 2 ^ 64) {stats : Stats}
    (now : s.world.stats n = stats) :
    stats.minted.toNat = stats.entries + stats.reclaimed.toNat + unregistrations n path ∧
    stats.reclaimed.toNat = removals n path ∧
    stats.sweeps.toNat = purges n path + roomMakings n path ∧
    stats.live ≤ stats.entries ∧
    (∀ entry ∈ (s.world.registry n).entries, entry.id.value < stats.minted) ∧
    ((s.world.registry n).entries.map Entry.id).Nodup ∧
    stats.live + (s.world.purge n).2 = stats.entries ∧
    stats.reclaimed.toNat + stats.entries < 2 ^ 64 := by
  subst now
  have issued := h.issued few
  have fewer := Registry.live_le_size s.world.heap.isLive (s.world.registry n)
  have balance := h.balance usable
  obtain ⟨reclaimed, sweeps⟩ := h.counters usable
  have minted : (s.world.stats n).minted.toNat = _ := Reachable.minted_toNat h.run few
  have removed : (s.world.stats n).reclaimed.toNat = removals n path :=
    (congrArg UInt64.toNat reclaimed).trans
      (UInt64.toNat_ofNat_of_lt' (Nat.lt_of_le_of_lt (by omega) few))
  have swept : (s.world.stats n).sweeps.toNat = purges n path + roomMakings n path :=
    (congrArg UInt64.toNat sweeps).trans (UInt64.toNat_ofNat_of_lt' rare)
  have entries : (s.world.stats n).entries = (s.world.registry n).size := rfl
  exact ⟨by omega, removed, swept, fewer, issued.below, issued.distinct,
    Nat.add_sub_cancel' fewer, by omega⟩

/-- Of two entries one was forgotten and the other one swept, by the second of two sweeps. -/
theorem entries_conserved_audited :
    ∃ path s, Path {} path s ∧ s.world.Open 1 ∧ (s.world.assigned 1).length = 2 ∧
      purges 1 path + roomMakings 1 path = 2 ∧ (s.world.stats 1).minted = 2 ∧
      (s.world.stats 1).entries = 0 ∧ (s.world.stats 1).reclaimed = 1 ∧
      unregistrations 1 path = 1 ∧ removals 1 path = 1 := by
  obtain ⟨path, s, h, usable, -, begun, journal⟩ := exists_path_audited
  have given : (s.world.assigned 1).length = 2 := by
    rw [assigned_eq_events, journal]
    rfl
  have sweeps : purges 1 path + roomMakings 1 path = 2 := by
    rw [← h.total_swept, journal]
    rfl
  have counters : (s.world.registry 1).counters = ⟨0, 2, 1, 2, 1⟩ := by
    rw [← (h.journaled (Or.inl usable)).2, begun, journal]
    decide
  have minted : (s.world.stats 1).minted = 2 := congrArg Replay.minted counters
  have entries : (s.world.stats 1).entries = 0 := congrArg Replay.entries counters
  have reclaimed : (s.world.stats 1).reclaimed = 1 := congrArg Replay.reclaimed counters
  obtain ⟨conserved, removed, -⟩ := entries_conserved h usable (by rw [given]; decide)
    (by rw [sweeps]; decide) rfl
  rw [minted, entries, reclaimed] at conserved
  rw [reclaimed] at removed
  have forgotten : unregistrations 1 path = 1 := (Nat.add_left_cancel (m := 2 - 1) conserved).symm
  exact ⟨path, s, h, usable, given, sweeps, minted, entries, reclaimed, forgotten, removed.symm⟩

end Scene

end WeakIdentity
