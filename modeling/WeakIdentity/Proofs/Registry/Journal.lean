import WeakIdentity.Proofs.Registry.Watermark

/-! Journals: the counters of a registry, computed from its events alone. A journal is accepted if
the numbers in every event follow from the events before it. All entries of an accepted journal are
accounted for: each is still in the table, was swept, or was forgotten. -/

namespace WeakIdentity

namespace Event

/-- How many ids an event reports as assigned. -/
def entered : Event → Nat
  | .assign .. => 1
  | _ => 0

/-- How many ids an event reports as forgotten. -/
def forgotten : Event → Nat
  | .forget _ => 1
  | _ => 0

/-- How many sweeps an event reports. -/
def swept : Event → Nat
  | .sweep .. => 1
  | _ => 0

/-- How many entries an event reports as removed by a sweep. -/
def reclaimed : Event → Nat
  | .sweep reclaimed _ _ => reclaimed
  | _ => 0

theorem sum_entered (events : List Event) :
    (events.map entered).sum = (events.filterMap assigned?).length := by
  induction events with
  | nil => rfl
  | cons event rest ih =>
    rw [List.map_cons, List.sum_cons, ih]
    cases event with
    | assign id entries => exact Nat.add_comm _ _
    | forget id => exact Nat.zero_add _
    | sweep reclaimed live watermark => exact Nat.zero_add _

end Event

/-- The counters of a registry, computed from its events. -/
structure Replay where
  entries : Nat := 0
  minted : UInt64 := 0
  reclaimed : UInt64 := 0
  sweeps : UInt64 := 0
  watermark : UInt64
  deriving DecidableEq, Repr

namespace Replay

/-- The counters after one more event. -/
def read (replay : Replay) : Event → Replay
  | .assign _ _ => { replay with entries := replay.entries + 1, minted := replay.minted + 1 }
  | .forget _ => { replay with entries := replay.entries - 1 }
  | .sweep reclaimed live watermark =>
    { replay with
      entries := live
      reclaimed := replay.reclaimed + .ofNat reclaimed
      sweeps := replay.sweeps + 1
      watermark }

def readAll (replay : Replay) (events : List Event) : Replay := events.foldl read replay

/-- The numbers in an event follow from the replay of the events before it. -/
def Admits (replay : Replay) : Event → Prop
  | .assign id entries => id = ⟨replay.minted⟩ ∧ entries = replay.entries + 1
  | .forget _ => 0 < replay.entries
  | .sweep reclaimed live _ => reclaimed + live = replay.entries

/-- The numbers in every event follow from the events before it. -/
def Accepts (replay : Replay) : List Event → Prop
  | [] => True
  | event :: rest => replay.Admits event ∧ (replay.read event).Accepts rest

theorem readAll_cons (replay : Replay) (event : Event) (rest : List Event) :
    replay.readAll (event :: rest) = (replay.read event).readAll rest := rfl

theorem readAll_append (replay : Replay) (first second : List Event) :
    replay.readAll (first ++ second) = (replay.readAll first).readAll second :=
  List.foldl_append

theorem accepts_append {replay : Replay} {first second : List Event} :
    replay.Accepts (first ++ second) ↔
      replay.Accepts first ∧ (replay.readAll first).Accepts second := by
  induction first generalizing replay with
  | nil => exact ⟨fun h => ⟨trivial, h⟩, fun h => h.2⟩
  | cons event rest ih =>
    rw [List.cons_append, Accepts, Accepts, ih, and_assoc]
    rfl

theorem Accepts.admits {replay : Replay} {before after : List Event} {event : Event}
    (accepts : replay.Accepts (before ++ event :: after)) :
    (replay.readAll before).Admits event :=
  (accepts_append.mp accepts).2.1

/-- An event moves the number of entries by what it reports. -/
theorem Admits.balance {replay : Replay} {event : Event} (admits : replay.Admits event) :
    replay.entries + event.entered =
      (replay.read event).entries + event.reclaimed + event.forgotten := by
  cases event with
  | assign id entries => rfl
  | forget id => exact (Nat.sub_add_cancel admits).symm
  | sweep reclaimed live watermark =>
    have all : reclaimed + live = replay.entries := admits
    simp only [Event.entered, Event.reclaimed, Event.forgotten, read]
    omega

/-- Whatever was entered is there, was swept or was forgotten. -/
theorem Accepts.balance {replay : Replay} {events : List Event} (accepts : replay.Accepts events) :
    replay.entries + (events.map Event.entered).sum =
      (replay.readAll events).entries + (events.map Event.reclaimed).sum +
        (events.map Event.forgotten).sum := by
  induction events generalizing replay with
  | nil => rfl
  | cons event rest ih =>
    have first := accepts.1.balance
    have later := ih accepts.2
    simp only [readAll_cons, List.map_cons, List.sum_cons]
    omega

/-- A counter that events move by a number of their own has been moved by their sum. -/
theorem counter_readAll {counter : Replay → UInt64} {weight : Event → Nat}
    (moves : ∀ replay event, counter (read replay event) = counter replay + .ofNat (weight event))
    (replay : Replay) (events : List Event) :
    counter (replay.readAll events) = counter replay + .ofNat (events.map weight).sum := by
  induction events generalizing replay with
  | nil => exact (UInt64.add_zero _).symm
  | cons event rest ih =>
    rw [readAll_cons, ih, moves, List.map_cons, List.sum_cons, UInt64.ofNat_add, UInt64.add_assoc]

theorem reclaimed_readAll (replay : Replay) (events : List Event) :
    (replay.readAll events).reclaimed =
      replay.reclaimed + .ofNat (events.map Event.reclaimed).sum := by
  refine counter_readAll (fun replay event => ?_) replay events
  cases event with
  | assign id entries => exact (UInt64.add_zero _).symm
  | forget id => exact (UInt64.add_zero _).symm
  | sweep reclaimed live watermark => rfl

theorem sweeps_readAll (replay : Replay) (events : List Event) :
    (replay.readAll events).sweeps = replay.sweeps + .ofNat (events.map Event.swept).sum := by
  refine counter_readAll (fun replay event => ?_) replay events
  cases event with
  | assign id entries => exact (UInt64.add_zero _).symm
  | forget id => exact (UInt64.add_zero _).symm
  | sweep reclaimed live watermark => rfl

end Replay

/-! ### What registries report -/

/-- The counters that a registry has. -/
def Registry.counters (r : Registry) : Replay where
  entries := r.size
  minted := r.minted
  reclaimed := r.reclaimed
  sweeps := r.sweeps
  watermark := r.watermark

/-- What a change reports is acceptable, and its replay is what the change does to the counters. -/
structure Change.Journals (change : Change) (r : Registry) : Prop where
  accepted : r.counters.Accepts change.events
  replayed : r.counters.readAll change.events = change.registry.counters

namespace Registry

variable {r : Registry} {alive : Object → Bool} {address : Nat}

theorem journals_same (r : Registry) : Change.Journals { registry := r } r := ⟨trivial, rfl⟩

theorem journals_sweep (alive : Object → Bool) (r : Registry) : (r.sweep alive).1.Journals r :=
  ⟨⟨Nat.sub_add_cancel (live_le_size alive r), trivial⟩, rfl⟩

theorem journals_makeRoom (alive : Object → Bool) (r : Registry) :
    (r.makeRoom alive).Journals r := by
  unfold makeRoom
  split
  · exact journals_sweep alive r
  · exact journals_same r

theorem journals_observe (alive : Object → Bool) (address : Nat) (object : Object)
    (r : Registry) : (r.observe alive address object).1.Journals r := by
  cases found : r.find? address with
  | some entry =>
    rw [observe_of_found found]
    exact journals_same r
  | none =>
    have room := journals_makeRoom alive r
    have minted := minted_makeRoom alive r
    rw [observe_of_unknown found]
    constructor
    · rw [Replay.accepts_append, room.replayed]
      exact ⟨room.accepted, ⟨congrArg ObjectId.mk minted.symm, rfl⟩, trivial⟩
    · rw [Replay.readAll_append, room.replayed, ← minted]
      rfl

/-- To forget takes one entry away, since no address comes twice. -/
theorem journals_forget (distinct : (r.entries.map Entry.address).Nodup) (address : Nat) :
    (r.forget address).1.Journals r := by
  cases found : r.find? address with
  | none =>
    rw [forget_of_unknown found]
    exact journals_same r
  | some entry =>
    have parts := (perm_of_find?_key Entry.address distinct found).length_eq
    rw [List.length_cons] at parts
    have some : 0 < r.size := Nat.lt_of_lt_of_eq (Nat.succ_pos _) parts
    rw [forget_of_found found]
    refine ⟨⟨some, trivial⟩, ?_⟩
    have fewer : r.size - 1 = (r.entries.filter fun other => other.address != address).length :=
      Nat.sub_eq_of_eq_add parts.symm
    simp only [Replay.readAll, List.foldl_cons, List.foldl_nil, Replay.read, counters, fewer]
    rfl

/-! ### The ids in a table -/

/-- The ids in the table are below the counter and all different, and the journal reports none of
them as forgotten. -/
structure Issued (r : Registry) (journal : List Event) : Prop where
  below : ∀ entry ∈ r.entries, entry.id.value < r.minted
  distinct : (r.entries.map Entry.id).Nodup
  unforgotten : ∀ entry ∈ r.entries, .forget entry.id ∉ journal
  past : ∀ id, .forget id ∈ journal → id.value < r.minted

variable {journal : List Event}

theorem Issued.sublist {r' : Registry} {journal' : List Event} (issued : r.Issued journal)
    (fewer : r'.entries.Sublist r.entries) (minted : r'.minted = r.minted)
    (silent : ∀ id, .forget id ∈ journal' → .forget id ∈ journal) : r'.Issued journal' where
  below entry mem := by rw [minted]; exact issued.below entry (fewer.subset mem)
  distinct := issued.distinct.sublist (fewer.map Entry.id)
  unforgotten entry mem told := issued.unforgotten entry (fewer.subset mem) (silent _ told)
  past id told := by rw [minted]; exact issued.past id (silent id told)

/-- The next id is new, as long as the counter does not run over. -/
theorem Issued.insert (issued : r.Issued journal) (few : 1 + r.minted.toNat < 2 ^ 64)
    (address : Nat) (object : Object) :
    Issued { r with entries := ⟨address, ⟨r.minted⟩, object⟩ :: r.entries, minted := r.minted + 1 }
      journal := by
  have next : r.minted < r.minted + 1 := by
    rw [UInt64.lt_iff_toNat_lt, UInt64.toNat_add, UInt64.toNat_one, Nat.mod_eq_of_lt (by omega)]
    exact Nat.lt_succ_self _
  constructor
  · rw [List.forall_mem_cons]
    exact ⟨next, fun entry mem => UInt64.lt_trans (issued.below entry mem) next⟩
  · refine List.nodup_cons.mpr ⟨fun mem => ?_, issued.distinct⟩
    obtain ⟨entry, old, same⟩ := List.mem_map.mp mem
    have below := issued.below entry old
    rw [same] at below
    exact UInt64.lt_irrefl _ below
  · rw [List.forall_mem_cons]
    exact ⟨fun told => UInt64.lt_irrefl _ (issued.past _ told), issued.unforgotten⟩
  · exact fun id told => UInt64.lt_trans (issued.past id told) next

theorem Issued.makeRoom (issued : r.Issued journal) (alive : Object → Bool) :
    (r.makeRoom alive).registry.Issued (journal ++ (r.makeRoom alive).events) := by
  refine issued.sublist (sublist_makeRoom alive r) (minted_makeRoom alive r) fun id told => ?_
  refine (List.mem_append.mp told).resolve_right fun new => ?_
  unfold Registry.makeRoom at new
  split at new
  · cases List.mem_singleton.mp new
  · cases new

theorem Issued.observe (issued : r.Issued journal) {object : Object}
    (few : ((r.observe alive address object).1.events.map Event.entered).sum + r.minted.toNat <
      2 ^ 64) :
    (r.observe alive address object).1.registry.Issued
      (journal ++ (r.observe alive address object).1.events) := by
  cases found : r.find? address with
  | some entry =>
    rw [observe_of_found found, List.append_nil]
    exact issued
  | none =>
    have room := issued.makeRoom alive
    rw [Event.sum_entered, assigned_observe found, List.length_singleton,
      ← minted_makeRoom alive r] at few
    have inserted := room.insert few address object
    rw [observe_of_unknown found, ← List.append_assoc, ← minted_makeRoom alive r]
    refine inserted.sublist (List.Sublist.refl _) rfl fun id told => ?_
    refine (List.mem_append.mp told).resolve_right fun new => ?_
    cases List.mem_singleton.mp new

theorem Issued.forget (issued : r.Issued journal) (address : Nat) :
    (r.forget address).1.registry.Issued (journal ++ (r.forget address).1.events) := by
  cases found : r.find? address with
  | none =>
    rw [forget_of_unknown found, List.append_nil]
    exact issued
  | some entry =>
    have mem := List.mem_of_find?_eq_some found
    have here : entry.address = address := by simpa using List.find?_some found
    have fewer : (r.entries.filter fun other => other.address != address).Sublist r.entries :=
      List.filter_sublist
    rw [forget_of_found found]
    refine ⟨fun other there => issued.below other (fewer.subset there),
      issued.distinct.sublist (fewer.map Entry.id), fun other there told => ?_, fun id told => ?_⟩
    · rcases List.mem_append.mp told with old | new
      · exact issued.unforgotten other (fewer.subset there) old
      · -- Two entries with one id are the same, and the one that is forgotten is gone.
        have same : other.id = entry.id := Event.forget.inj (List.mem_singleton.mp new)
        have itself := List.inj_on_of_nodup_map issued.distinct (fewer.subset there) mem same
        have elsewhere := (List.mem_filter.mp there).2
        rw [itself, here, bne_self_eq_false] at elsewhere
        cases elsewhere
    · rcases List.mem_append.mp told with old | new
      · exact issued.past id old
      · rw [Event.forget.inj (List.mem_singleton.mp new)]
        exact issued.below entry mem

/-- The journal reports every id in the table as assigned. -/
def Recorded (r : Registry) (journal : List Event) : Prop :=
  ∀ entry ∈ r.entries, entry.id ∈ journal.filterMap Event.assigned?

theorem Recorded.sublist {r' : Registry} (recorded : r.Recorded journal)
    (fewer : r'.entries.Sublist r.entries) (events : List Event) :
    r'.Recorded (journal ++ events) := by
  intro entry mem
  rw [List.filterMap_append]
  exact List.mem_append_left _ (recorded entry (fewer.subset mem))

theorem Recorded.observe (recorded : r.Recorded journal) (alive : Object → Bool) (address : Nat)
    (object : Object) :
    (r.observe alive address object).1.registry.Recorded
      (journal ++ (r.observe alive address object).1.events) := by
  cases found : r.find? address with
  | some entry =>
    rw [observe_of_found found]
    exact recorded.sublist (List.Sublist.refl _) []
  | none =>
    have new := assigned_observe found alive object
    intro entry mem
    rw [List.filterMap_append, new]
    rw [observe_of_unknown found] at mem
    rcases List.mem_cons.mp mem with rfl | old
    · exact List.mem_append_right _ (List.mem_singleton_self _)
    · exact List.mem_append_left _ (recorded entry ((sublist_makeRoom alive r).subset old))

theorem sublist_forget (r : Registry) (address : Nat) :
    (r.forget address).1.registry.entries.Sublist r.entries := by
  cases found : r.find? address with
  | none =>
    rw [forget_of_unknown found]
  | some entry =>
    rw [forget_of_found found]
    exact List.filter_sublist

end Registry

end WeakIdentity
