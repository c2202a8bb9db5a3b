import WeakIdentity.Proofs.Ledger.Law
import WeakIdentity.Proofs.Scene.Sweeps

/-! How tables grow. The watermark follows what the last sweep left, so that a table is never much
larger than the objects that were alive in it at one time, and the sweeps that insertions bring are
paid for by the insertions. -/

namespace WeakIdentity

namespace Registry

variable {r : Registry} {left : Option Nat} {alive : Object → Bool} {usable : Prop}
  {call : Option Call} {change : Change}

/-- What a turn does to the size of a table: entries may be removed, or those of dead objects are
removed by a sweep, or an entry is inserted, after a sweep if the table is full. -/
inductive Growth (alive : Object → Bool) (r : Registry) : Option Call → Change → Prop
  | shrink {call : Option Call} {change : Change}
      (threshold : change.registry.threshold = r.threshold)
      (watermark : change.registry.watermark = r.watermark) (fewer : change.registry.size ≤ r.size)
      (events : ∀ event ∈ change.events, ∃ id, event = .forget id) : Growth alive r call change
  | sweep : Growth alive r none (r.sweep alive).1
  | insert {address : Nat} (unknown : r.find? address = none) {object : Object}
      (live : alive object = true) :
      Growth alive r (some .observe) (r.observe alive address object).1

theorem Turn.growth (turn : r.Turn alive usable call change) : r.Growth alive call change := by
  cases turn with
  | lookup => exact .shrink rfl rfl (Nat.le_refl _) nofun
  | purge => exact .sweep
  | close gone => exact .shrink rfl rfl (Nat.zero_le _) nofun
  | observe address live =>
    cases found : r.find? address with
    | none => exact .insert found live
    | some entry =>
      rw [observe_of_found found]
      exact .shrink rfl rfl (Nat.le_refl _) (by simp)
  | forget address live =>
    have fewer := size_forget_le r address
    cases found : r.find? address with
    | none =>
      rw [forget_of_unknown found]
      exact .shrink rfl rfl (Nat.le_refl _) (by simp)
    | some entry =>
      rw [forget_of_found found] at fewer ⊢
      exact .shrink rfl rfl fewer (by simp)

section Events

variable {events : List Event} (h : ∀ event ∈ events, ∃ id, event = .forget id)
include h

theorem not_sweep_of_forget : events.any Event.isSweep = false := by
  rw [List.any_eq_false]
  intro event mem
  obtain ⟨id, rfl⟩ := h event mem
  simp [Event.isSweep]

theorem not_assigned_of_forget : events.filterMap Event.assigned? = [] := by
  rw [List.filterMap_eq_nil_iff]
  intro event mem
  obtain ⟨id, rfl⟩ := h event mem
  rfl

theorem not_visited_of_forget : (events.map Event.visited).sum = 0 := by
  refine List.sum_eq_zero fun k mem => ?_
  obtain ⟨event, there, rfl⟩ := List.mem_map.mp mem
  obtain ⟨id, rfl⟩ := h event there
  rfl

end Events

/-! ### The watermark -/

/-- The table fits below its watermark, which is where the last sweep put it, with `left` entries
left, or the threshold if there was none. -/
structure Spaced (r : Registry) (left : Option Nat) : Prop where
  accepted : 0 < r.threshold.toNat
  watermark : r.watermark.toNat =
    left.elim r.threshold.toNat fun k => max r.threshold.toNat (2 * k)
  fits : r.size ≤ r.watermark.toNat

theorem spaced_ofOptions {options : Options} (valid : options.validate = .ok ()) :
    (ofOptions options).Spaced none := by
  refine ⟨Nat.pos_of_ne_zero fun zero => ?_, rfl, Nat.zero_le _⟩
  have none : options.sweepThreshold = 0 := UInt64.toNat_inj.mp zero
  simp [Options.validate, none] at valid

theorem Spaced.sweep (spaced : r.Spaced left) (small : r.size < 2 ^ 63) (alive : Object → Bool) :
    (r.sweep alive).1.registry.Spaced (some (r.stats alive).live) where
  accepted := spaced.accepted
  watermark := watermark_sweep alive r small
  fits := Nat.le_of_lt (size_lt_watermark_sweep alive r small spaced.accepted)

/-- A turn leaves the table below its watermark. -/
theorem Spaced.grow (spaced : r.Spaced left) (small : r.size < 2 ^ 63)
    (growth : r.Growth alive call change) :
    change.registry.Spaced
      (if change.events.any Event.isSweep then some (r.stats alive).live else left) := by
  cases growth with
  | shrink threshold watermark fewer events =>
    rw [not_sweep_of_forget events]
    refine ⟨?_, ?_, ?_⟩
    · rw [threshold]
      exact spaced.accepted
    · rw [threshold, watermark]
      exact spaced.watermark
    · rw [watermark]
      exact Nat.le_trans fewer spaced.fits
  | sweep => exact spaced.sweep small alive
  | @insert address unknown object live =>
    rw [observe_of_unknown unknown]
    by_cases full : r.watermark.toNat ≤ r.size
    · have swept := spaced.sweep small alive
      have room := size_lt_watermark_sweep alive r small spaced.accepted
      rw [makeRoom_of_le full]
      exact ⟨swept.accepted, swept.watermark, room⟩
    · have room := Nat.not_le.mp full
      rw [makeRoom_of_lt room]
      exact ⟨spaced.accepted, spaced.watermark, room⟩

theorem Growth.threshold (growth : r.Growth alive call change) :
    change.registry.threshold = r.threshold := by
  cases growth with
  | shrink threshold watermark fewer events => exact threshold
  | sweep => rfl
  | insert unknown live =>
    rw [observe_of_unknown unknown]
    unfold makeRoom
    split <;> rfl

/-- The entries that survive a sweep are in the table after the turn of the sweep. -/
theorem Growth.live_le (growth : r.Growth alive call change)
    (swept : change.events.any Event.isSweep = true) :
    (r.stats alive).live ≤ (change.registry.stats alive).live := by
  have kept := live_sweep alive r
  cases growth with
  | shrink threshold watermark fewer events =>
    rw [not_sweep_of_forget events] at swept
    cases swept
  | sweep => exact Nat.le_of_eq kept.symm
  | @insert address unknown object live =>
    rw [observe_of_unknown unknown] at swept ⊢
    by_cases full : r.watermark.toNat ≤ r.size
    · rw [makeRoom_of_le full, ← kept]
      exact ((List.sublist_cons_self _ _).filter _).length_le
    · rw [makeRoom_of_lt (Nat.not_le.mp full)] at swept
      cases swept

/-- A table below its watermark stays there as long as no entry comes. -/
theorem Growth.room (growth : r.Growth alive call change) (small : r.size < 2 ^ 63)
    (accepted : 0 < r.threshold.toNat)
    (room : r.size < r.watermark.toNat ∨ change.events.any Event.isSweep = true)
    (still : change.events.filterMap Event.assigned? = []) :
    change.registry.size < change.registry.watermark.toNat := by
  cases growth with
  | shrink threshold watermark fewer events =>
    rw [not_sweep_of_forget events] at room
    rw [watermark]
    exact Nat.lt_of_le_of_lt fewer (room.resolve_right Bool.false_ne_true)
  | sweep => exact size_lt_watermark_sweep alive r small accepted
  | insert unknown live =>
    rw [assigned_observe unknown] at still
    cases still

/-- An entry that comes to a table below its watermark brings no sweep. -/
theorem Growth.not_sweep (growth : r.Growth alive call change) (room : r.size < r.watermark.toNat)
    (inserted : change.events.filterMap Event.assigned? ≠ []) :
    change.events.any Event.isSweep = false := by
  cases growth with
  | shrink threshold watermark fewer events => exact absurd (not_assigned_of_forget events) inserted
  | sweep => exact absurd rfl inserted
  | insert unknown live =>
    rw [observe_of_unknown unknown, makeRoom_of_lt room]
    rfl

/-- A turn brings one sweep at most, which goes through the whole table. -/
theorem Growth.sweep_eq (growth : r.Growth alive call change) :
    (change.events.filter Event.isSweep).length ≤ 1 ∧
      (change.events.any Event.isSweep = true →
        (change.events.map Event.visited).sum = r.size) := by
  have visited := visited_sweep alive r
  cases growth with
  | shrink threshold watermark fewer events =>
    have none := not_sweep_of_forget events
    rw [List.any_eq_false] at none
    rw [List.filter_eq_nil_iff.mpr none]
    exact ⟨Nat.zero_le _, fun swept => absurd (List.any_eq_true.mp swept) (by simpa using none)⟩
  | sweep => exact ⟨Nat.le_refl _, fun _ => visited⟩
  | insert unknown live =>
    rw [visited_observe unknown, observe_of_unknown unknown]
    by_cases full : r.watermark.toNat ≤ r.size
    · rw [makeRoom_of_le full]
      exact ⟨Nat.le_refl _, fun _ => visited⟩
    · rw [makeRoom_of_lt (Nat.not_le.mp full)]
      exact ⟨Nat.zero_le _, nofun⟩

/-! ### The cost of sweeps -/

/-- What the sweeps that an observation brings go through. -/
def paidVisits (call : Option Call) (events : List Event) : Nat :=
  if call = some .observe then (events.map Event.visited).sum else 0

/-- Insertions pay for the sweeps that they bring, each of them two. -/
theorem Growth.visits_le (growth : r.Growth alive call change) (small : r.size < 2 ^ 63) :
    paidVisits call change.events + change.registry.credit ≤
      2 * (change.events.filterMap Event.assigned?).length + r.credit := by
  cases growth with
  | shrink threshold watermark fewer events =>
    have unpaid : paidVisits call change.events = 0 := by
      rw [paidVisits, not_visited_of_forget events, ite_self]
    have less : change.registry.credit ≤ r.credit := by
      unfold credit
      rw [watermark]
      omega
    omega
  | sweep =>
    have nothing := credit_sweep alive small
    have unpaid : paidVisits none (r.sweep alive).1.events = 0 := rfl
    omega
  | insert unknown live => exact visited_observe_le alive small _ _

end Registry

namespace Scene

open World

variable {s t : Scene} {path : List Transition} {n : Nat}

/-- In a step a registry begins, or its table may grow. -/
theorem Path.growth (h : Path s path t) (sound : s.Sound) {m : Transition} (mem : m ∈ path)
    (n : Nat) :
    (∃ options : Options, options.validate = .ok () ∧ m.before.world.registries.size = n ∧
        m.after.world.registry n = .ofOptions options ∧ m.events n = []) ∨
      ∃ change, (m.before.world.registry n).Growth m.after.world.heap.isLive (callTo n m.calls)
          change ∧
        m.after.world.registry n = change.registry ∧ m.events n = change.events := by
  have turns := h.turns sound mem n
  generalize callTo n m.calls = call at turns ⊢
  cases turns with
  | rest registry events =>
    exact Or.inr ⟨{ registry := m.before.world.registry n },
      .shrink rfl rfl (Nat.le_refl _) nofun, registry,
      Transition.events_of_eq (by rw [events, List.append_nil])⟩
  | @opened options valid new size registry events =>
    exact Or.inl ⟨options, valid, new.symm, registry,
      Transition.events_of_eq (by rw [events, List.append_nil])⟩
  | turn bound turn registry events =>
    exact Or.inr ⟨_, turn.growth, registry, Transition.events_of_eq events⟩

/-- The entries that a sweep in the step leaves. -/
def Transition.survivors (m : Transition) (n : Nat) : Nat :=
  ((m.before.world.registry n).stats m.after.world.heap.isLive).live

/-- The entries that the last sweep of a registry left, if there was one. -/
def survivors (n : Nat) (path : List Transition) : Option Nat :=
  ((path.filter fun m => m.sweeps n).getLast?).map fun m => m.survivors n

theorem survivors_concat (n : Nat) (path : List Transition) (m : Transition) :
    survivors n (path ++ [m]) = if m.sweeps n then some (m.survivors n) else survivors n path := by
  cases swept : m.sweeps n <;> simp [survivors, List.filter_append, swept]

/-- The greatest number of entries of live objects that a table has had. -/
def peak (n : Nat) (path : List Transition) : Nat :=
  (path.map fun m => (m.after.world.stats n).live).foldr max 0

/-- How many entries the sweeps of observations have gone through. -/
def visits (n : Nat) (path : List Transition) : Nat :=
  (path.map fun m => Registry.paidVisits (callTo n m.calls) (m.events n)).sum

/-- Tables are always smaller than 2^63 entries. -/
def Small (n : Nat) (path : List Transition) : Prop :=
  ∀ m ∈ path, (m.after.world.registry n).size < 2 ^ 63

instance (n : Nat) (path : List Transition) : Decidable (Small n path) :=
  inferInstanceAs (Decidable (∀ m ∈ path, (m.after.world.registry n).size < 2 ^ 63))

theorem registry_start (n : Nat) : ({} : Scene).world.registry n = .ofOptions {} := by
  rw [registry_eq_getD]
  cases n <;> rfl

theorem Path.size_lt (h : Path {} path s) (small : Small n path) :
    (s.world.registry n).size < 2 ^ 63 := by
  cases h with
  | refl =>
    rw [registry_start]
    decide
  | step before last => exact small _ (List.mem_append_right _ (List.mem_singleton_self _))

theorem Small.of_append {first second : List Transition} (small : Small n (first ++ second)) :
    Small n first :=
  fun m mem => small m (List.mem_append_left _ mem)

theorem Path.survivors_unopened (h : Path s path t) (sound : s.Sound)
    (beyond : t.world.registries.size ≤ n) : survivors n path = none := by
  have none : path.filter (fun m => m.sweeps n) = [] := by
    rw [List.filter_eq_nil_iff]
    intro m mem
    simp [Transition.sweeps, (h.unopened sound beyond mem).2]
  rw [survivors, none]
  rfl

/-- Tables fit below their watermarks, which follow the sweeps. -/
theorem Path.spaced (h : Path {} path s) (small : Small n path) :
    (s.world.registry n).Spaced (survivors n path) := by
  induction h with
  | refl =>
    rw [registry_start]
    exact Registry.spaced_ofOptions rfl
  | step before last ih =>
    have spaced := ih small.of_append
    have bounded := before.size_lt small.of_append
    rw [survivors_concat, Transition.sweeps]
    rcases (before.step last).growth sound_start (List.mem_append_right _ List.mem_cons_self) n with
      ⟨options, valid, new, registry, events⟩ | ⟨change, growth, registry, events⟩
    · have unswept := before.survivors_unopened sound_start (Nat.le_of_eq new)
      rw [registry, events, unswept]
      exact Registry.spaced_ofOptions valid
    · have grown := spaced.grow bounded growth
      rw [registry, events]
      exact grown

/-- A registry has the threshold that it began with. -/
theorem Path.threshold (h : Path s path t) (sound : s.Sound) (bound : n < s.world.registries.size) :
    (t.world.registry n).threshold = (s.world.registry n).threshold := by
  induction h with
  | refl => rfl
  | step before last ih =>
    have later := (before.run.later sound).registries
    rcases (before.step last).growth sound (List.mem_append_right _ List.mem_cons_self) n with
      ⟨options, valid, new, registry, events⟩ | ⟨change, growth, registry, events⟩
    · dsimp only at new
      omega
    · have kept : change.registry.threshold = _ := growth.threshold
      exact ((congrArg Registry.threshold registry).trans kept).trans ih

/-! ### Options -/

/-- The step makes the registry of a number, with valid options whose table fits. -/
structure Transition.Opens (m : Transition) (n : Nat) (options : Options) : Prop where
  new : m.before.world.registries.size = n
  valid : options.validate = .ok ()
  made : ∃ alloc : Allocator, alloc.fits options.initialCapacity = true ∧
    m.after.world = (m.before.world.createRegistry alloc (.ofOptions options)).1

/-- The options of a registry: the default ones for the process-wide registry, and for any other
those of the step that made it. -/
inductive OpenedWith (path : List Transition) : Nat → Options → Prop
  | processWide : OpenedWith path World.processWide {}
  | step {m : Transition} {n : Nat} {options : Options} (mem : m ∈ path)
      (opens : m.Opens n options) : OpenedWith path n options

theorem Transition.Opens.registry {m : Transition} {options : Options} (opens : m.Opens n options) :
    n < m.after.world.registries.size ∧ m.after.world.registry n = .ofOptions options := by
  obtain ⟨rfl, -, alloc, -, after⟩ := opens
  rw [after, createRegistry_eq, create_eq]
  exact ⟨by simp, by rw [registry_push, if_pos rfl]⟩

/-- A step that makes no registry of the next number makes none at all. -/
theorem Step.opens_or_size_eq {calls : List CallRecord} (step : Step s calls t) :
    (∃ options, Transition.Opens ⟨s, calls, t⟩ s.world.registries.size options) ∨
      t.world.registries.size = s.world.registries.size := by
  cases step with
  | @openRegistry w strong weak alloc options valid fits =>
    exact Or.inl ⟨options, rfl, valid, alloc, fits, rfl⟩
  | drop o => exact Or.inr (size_perform _ _)
  | link holder held linked =>
    unfold link? at linked
    split at linked
    · cases Option.some.inj linked
      exact Or.inr rfl
    · cases linked
  | purge usable => exact Or.inr (size_apply _ _ _)
  | ask query usable held =>
    obtain ⟨k, call, o⟩ := query
    cases call with
    | lookup => exact Or.inr rfl
    | observe => exact Or.inr (size_apply _ _ _)
    | forget => exact Or.inr (size_apply _ _ _)
  | _ => exact Or.inr rfl

theorem OpenedWith.append {options : Options} (opened : OpenedWith path n options)
    (rest : List Transition) : OpenedWith (path ++ rest) n options := by
  cases opened with
  | processWide => exact .processWide
  | step mem opens => exact .step (List.mem_append_left _ mem) opens

/-- Every registry was opened with some options. -/
theorem Path.exists_openedWith (h : Path {} path s) (bound : n < s.world.registries.size) :
    ∃ options, OpenedWith path n options := by
  induction h with
  | refl =>
    obtain rfl : n = World.processWide := Nat.lt_one_iff.mp bound
    exact ⟨{}, .processWide⟩
  | @step m t path calls before last ih =>
    by_cases old : n < m.world.registries.size
    · obtain ⟨options, opened⟩ := ih old
      exact ⟨options, opened.append _⟩
    · rcases last.opens_or_size_eq with ⟨options, opens⟩ | same
      · have size : t.world.registries.size = m.world.registries.size + 1 := by
          obtain ⟨-, -, alloc, -, after⟩ := opens
          rw [show t.world = _ from after, createRegistry_eq]
          simp
        obtain rfl : n = m.world.registries.size := by omega
        exact ⟨options, .step (List.mem_append_right _ List.mem_cons_self) opens⟩
      · omega

/-- The threshold of a registry is that of the options it was opened with. -/
theorem Path.threshold_of_openedWith (h : Path {} path s) {options : Options}
    (opened : OpenedWith path n options) :
    (s.world.registry n).threshold = options.sweepThreshold := by
  cases opened with
  | processWide => exact h.threshold sound_start (show 0 < 1 from Nat.one_pos)
  | step mem opens =>
    obtain ⟨before, after, rfl⟩ := List.append_of_mem mem
    obtain ⟨first, step, rest⟩ := h.split
    obtain ⟨bound, registry⟩ := opens.registry
    rw [rest.threshold (step.sound (first.sound sound_start)) bound, registry]
    rfl

theorem live_le_peak {m : Transition} (mem : m ∈ path) :
    (m.after.world.stats n).live ≤ peak n path := by
  induction path with
  | nil => cases mem
  | cons first rest ih =>
    rcases List.mem_cons.mp mem with rfl | later
    · exact Nat.le_max_left _ _
    · exact Nat.le_trans (ih later) (Nat.le_max_right _ _)

/-- The survivors of the last sweep were live entries of the table at that time. -/
theorem Path.survivors_le_peak (h : Path s path t) (sound : s.Sound) {k : Nat}
    (last : survivors n path = some k) : k ≤ peak n path := by
  obtain ⟨m, found, rfl⟩ := Option.map_eq_some_iff.mp last
  obtain ⟨mem, swept⟩ := List.mem_filter.mp (List.mem_of_getLast? found)
  rw [Transition.sweeps] at swept
  refine Nat.le_trans ?_ (live_le_peak mem)
  rcases h.growth sound mem n with ⟨-, -, -, -, events⟩ | ⟨change, growth, registry, events⟩
  · rw [events] at swept
    cases swept
  · rw [events] at swept
    rw [stats, registry]
    exact growth.live_le swept

/-- A step that sweeps, or finds room, leaves room if it inserts nothing. -/
theorem Path.room_last {m : Transition} (h : Path {} (path ++ [m]) s)
    (small : Small n (path ++ [m]))
    (room : (m.before.world.registry n).size < (m.before.world.registry n).watermark.toNat ∨
      m.sweeps n = true) (still : m.minted n = []) :
    (s.world.registry n).size < (s.world.registry n).watermark.toNat := by
  obtain ⟨first, step, rfl⟩ := h.last
  have spaced := first.spaced small.of_append
  have bounded := first.size_lt small.of_append
  rw [Transition.sweeps] at room
  rw [Transition.minted] at still
  rcases h.growth sound_start (List.mem_append_right _ List.mem_cons_self) n with
    ⟨options, valid, new, registry, events⟩ | ⟨change, growth, registry, events⟩
  · rw [registry]
    exact (Registry.spaced_ofOptions valid).accepted
  · rw [events] at room still
    rw [registry]
    exact growth.room bounded spaced.accepted room still

/-- After a sweep without an insertion there is room until the next insertion. -/
theorem Path.room {before between : List Transition} {m : Transition}
    (h : Path {} (before ++ m :: between) s) (small : Small n (before ++ m :: between))
    (swept : m.sweeps n = true) (still : ∀ k ∈ m :: between, k.minted n = []) :
    (s.world.registry n).size < (s.world.registry n).watermark.toNat := by
  induction between using List.reverseRecOn generalizing s with
  | nil => exact h.room_last small (Or.inr swept) (still m List.mem_cons_self)
  | append_singleton between last ih =>
    have split : before ++ m :: (between ++ [last]) = (before ++ m :: between) ++ [last] := by simp
    rw [split] at h small
    have earlier : ∀ k ∈ m :: between, k.minted n = [] := by
      intro k mem
      refine still k ?_
      rw [← List.cons_append]
      exact List.mem_append_left _ mem
    exact h.room_last small (Or.inl (ih h.last.1 small.of_append earlier)) (still last (by simp))

theorem Path.size_le_peak (h : Path {} path s) (small : Small n path) :
    (s.world.registry n).size ≤ max (s.world.registry n).threshold.toNat (2 * peak n path) := by
  have spaced := h.spaced small
  refine Nat.le_trans spaced.fits ?_
  rw [spaced.watermark]
  cases left : survivors n path with
  | none => exact Nat.le_max_left _ _
  | some k =>
    have fewer := h.survivors_le_peak sound_start left
    simp only [Option.elim_some]
    omega

theorem Path.sweep_eq (h : Path s path t) (sound : s.Sound) {m : Transition} (mem : m ∈ path)
    (n : Nat) :
    ((m.events n).filter Event.isSweep).length ≤ 1 ∧
      (m.sweeps n = true →
        ((m.events n).map Event.visited).sum = (m.before.world.registry n).size) := by
  rw [Transition.sweeps]
  rcases h.growth sound mem n with ⟨-, -, -, -, events⟩ | ⟨change, growth, -, events⟩
  · rw [events]
    refine ⟨Nat.zero_le _, fun swept => ?_⟩
    cases swept
  · rw [events]
    exact growth.sweep_eq

/-- The first insertion after a sweep brings no other one. -/
theorem Path.fits_after_sweep {before between after : List Transition} {m next : Transition}
    (h : Path {} (before ++ m :: (between ++ next :: after)) s)
    (small : Small n (before ++ m :: (between ++ next :: after))) (swept : m.sweeps n = true)
    (still : ∀ k ∈ m :: between, k.minted n = []) (inserts : next.minted n ≠ []) :
    next.sweeps n = false := by
  rw [← List.cons_append, ← List.append_assoc] at h small
  have room := h.split.1.room small.of_append swept still
  rw [Transition.minted] at inserts
  rw [Transition.sweeps]
  rcases h.growth sound_start (List.mem_append_right _ List.mem_cons_self) n with
    ⟨-, -, -, -, events⟩ | ⟨change, growth, -, events⟩
  · rw [events] at inserts
    exact absurd rfl inserts
  · rw [events] at inserts ⊢
    exact growth.not_sweep room inserts

/-- A registry with the threshold two observes two objects, one of which is destroyed before a third
one is observed, which brings a sweep. -/
theorem exists_path_sweeping :
    ∃ path s, Path {} path s ∧ Small 1 path ∧ survivors 1 path = some 1 ∧ peak 1 path = 2 ∧
      visits 1 path = 2 ∧ (s.world.assigned 1).length = 3 := by
  have held : ∀ (strong : Multiset Object), ∀ o ∈ Content.plain.owned, o ∈ strong := by
    simp [Content.owned]
  have usable : ∀ {w : World}, w.heap.isLive ⟨0⟩ = true → w.registryNumber? ⟨0⟩ = some 1 →
      w.Open 1 := fun live number => Or.inr ⟨⟨0⟩, live, number⟩
  have opened : Path {} _ _ :=
    (Path.refl {}).step
      (Step.openRegistry .beyond (show Options.validate ⟨0, 2⟩ = .ok () from rfl) rfl)
  have first := opened.step (Step.create .beyond (.aligned 1 0) (held _) (by simp))
  have second := first.step (Step.create .beyond (.aligned 1 0) (held _) (by simp))
  have observed := second.step (Step.ask ⟨1, .observe, ⟨1⟩⟩
    (usable (by decide +kernel) (by decide +kernel))
    (Multiset.mem_cons_of_mem (Multiset.mem_cons_self _ _)))
  have both := observed.step (Step.ask ⟨1, .observe, ⟨2⟩⟩
    (usable (by decide +kernel) (by decide +kernel)) (Multiset.mem_cons_self _ _))
  have dropped := both.step (Step.drop ⟨2⟩)
  have third := dropped.step (Step.create .beyond (.aligned 1 0) (held _) (by simp))
  have swept := third.step (Step.ask ⟨1, .observe, ⟨3⟩⟩
    (usable (by decide +kernel) (by decide +kernel))
    (Multiset.mem_cons.mpr (Or.inl (by decide +kernel))))
  exact ⟨_, _, swept, by decide +kernel, by decide +kernel, by decide +kernel, by decide +kernel,
    by decide +kernel⟩

/-- Tables are bounded by the live set. A registry keeps the threshold of the options that it was
opened with, and sweeps when it is purged and when an entry is inserted into a full table. A table
never outgrows its watermark, which is twice what the last sweep left but not less than the
threshold, so that it never outgrows twice the entries that were alive in it at one time. No step
sweeps twice, and the first insertion after a purge does not sweep. -/
theorem table_bounded (h : Path {} path s) (n : Nat) (small : Small n path) {r : Registry}
    (now : s.world.registry n = r) :
    0 < r.threshold.toNat ∧
    (∀ m ∈ path, n < m.after.world.registries.size →
      (m.after.world.registry n).threshold = r.threshold) ∧
    (n < s.world.registries.size → ∃ options, OpenedWith path n options) ∧
    (∀ options, OpenedWith path n options → r.threshold = options.sweepThreshold) ∧
    (∀ m ∈ path, m.sweeps n = true ↔ m.Purges n ∨ m.MakesRoom n) ∧
    r.size ≤ r.watermark.toNat ∧
    r.watermark.toNat =
      (survivors n path).elim r.threshold.toNat (fun k => max r.threshold.toNat (2 * k)) ∧
    r.size ≤ max r.threshold.toNat (2 * peak n path) ∧
    (∀ m ∈ path, ((m.events n).filter Event.isSweep).length ≤ 1) ∧
    (∀ before m between next after, path = before ++ m :: (between ++ next :: after) →
      m.sweeps n = true → (∀ k ∈ m :: between, k.minted n = []) → next.minted n ≠ [] →
      next.sweeps n = false) := by
  have spaced := h.spaced small
  subst now
  refine ⟨spaced.accepted, ?_, h.exists_openedWith, fun _ => h.threshold_of_openedWith,
    fun m mem => h.sweeps_iff sound_start mem, spaced.fits, spaced.watermark,
    h.size_le_peak small, fun m mem => (h.sweep_eq sound_start mem n).1, ?_⟩
  · intro m mem bound
    obtain ⟨before, after, rfl⟩ := List.append_of_mem mem
    obtain ⟨first, step, rest⟩ := h.split
    exact (rest.threshold (step.sound (first.sound sound_start)) bound).symm
  · rintro before m between next after rfl swept still inserts
    exact h.fits_after_sweep small swept still inserts

/-- Of two entries a sweep leaves one, and the table may have two again. -/
theorem table_bounded_sweeping :
    ∃ path s r, Path {} path s ∧ Small 1 path ∧ s.world.registry 1 = r ∧
      survivors 1 path = some 1 ∧ r.watermark.toNat = max r.threshold.toNat 2 ∧
      r.size ≤ max r.threshold.toNat (2 * 2) := by
  obtain ⟨path, s, h, small, left, live, -⟩ := exists_path_sweeping
  obtain ⟨-, -, -, -, -, -, watermark, bounded, -⟩ := table_bounded h 1 small rfl
  rw [left] at watermark
  rw [live] at bounded
  exact ⟨path, s, _, h, small, rfl, left, watermark, bounded⟩

/-! ### The cost of sweeps -/

theorem visits_concat (n : Nat) (path : List Transition) (m : Transition) :
    visits n (path ++ [m]) =
      visits n path + Registry.paidVisits (callTo n m.calls) (m.events n) := by
  simp [visits]

/-- In a step, insertions pay for the sweeps that they bring. -/
theorem Path.cost_le (h : Path s path t) (sound : s.Sound) {m : Transition} (mem : m ∈ path)
    (small : (m.before.world.registry n).size < 2 ^ 63) :
    Registry.paidVisits (callTo n m.calls) (m.events n) + (m.after.world.registry n).credit ≤
      2 * (m.minted n).length + (m.before.world.registry n).credit := by
  rw [Transition.minted]
  rcases h.growth sound mem n with
    ⟨options, -, -, registry, events⟩ | ⟨change, growth, registry, events⟩
  · have unpaid : Registry.paidVisits (callTo n m.calls) [] = 0 := ite_self 0
    have nothing : (Registry.ofOptions options).credit = 0 := Nat.zero_sub _
    rw [registry, events, unpaid, nothing]
    exact Nat.zero_le _
  · rw [registry, events]
    exact growth.visits_le small

/-- Insertions have paid for all sweeps that they brought, and for what the next one will cost. -/
theorem Path.visits_le (h : Path {} path s) (small : Small n path) :
    visits n path + (s.world.registry n).credit ≤ 2 * (s.world.assigned n).length := by
  induction path using List.reverseRecOn generalizing s with
  | nil =>
    cases h.eq_of_nil
    rw [registry_start]
    exact Nat.zero_le _
  | append_singleton path m ih =>
    have mem : m ∈ path ++ [m] := List.mem_append_right _ List.mem_cons_self
    have given := congrArg List.length (h.assigned sound_start mem n)
    have cost := h.cost_le (n := n) sound_start mem
    obtain ⟨first, -, rfl⟩ := h.last
    have paid := ih first small.of_append
    have step := cost (first.size_lt small.of_append)
    rw [List.length_append] at given
    rw [visits_concat, given]
    omega

/-- Sweeps are paid for by insertions. The sweeps that observations bring go through at most two
entries for each id that has been given, whatever is forgotten, purged and dropped in between. -/
theorem sweeps_amortized (h : Path {} path s) (n : Nat) (small : Small n path) :
    visits n path ≤ 2 * (s.world.assigned n).length ∧
    ((s.world.assigned n).length < 2 ^ 64 →
      visits n path ≤ 2 * (s.world.registry n).minted.toNat) ∧
    (∀ m ∈ path, m.sweeps n = true →
      ((m.events n).map Event.visited).sum = (m.before.world.registry n).size) := by
  have paid := h.visits_le small
  refine ⟨by omega, fun few => ?_, fun m mem => (h.sweep_eq sound_start mem n).2⟩
  have counter := Reachable.minted_toNat h.run few
  omega

/-- Three insertions brought a sweep that went through two entries. -/
theorem sweeps_amortized_sweeping :
    ∃ path s, Path {} path s ∧ Small 1 path ∧ visits 1 path = 2 ∧
      (s.world.assigned 1).length = 3 ∧ visits 1 path ≤ 2 * (s.world.registry 1).minted.toNat := by
  obtain ⟨path, s, h, small, -, -, visited, given⟩ := exists_path_sweeping
  exact ⟨path, s, h, small, visited, given,
    (sweeps_amortized h 1 small).2.1 (by rw [given]; decide)⟩

end Scene

end WeakIdentity
