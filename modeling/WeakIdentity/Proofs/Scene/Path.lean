import Mathlib.Data.List.Induction
import WeakIdentity.Proofs.Ledger.Agreement
import WeakIdentity.Proofs.Registry.Watermark

/-! Paths: runs with the scenes they go through. Two scenes that follow each other determine the
objects that were destroyed in between, and the events that each registry reported. -/

namespace WeakIdentity

/-- What a registry has reported so far. -/
def World.eventsOf (w : World) (n : Nat) : List Event :=
  w.events.filterMap fun event => if event.1 = n then some event.2 else none

theorem World.eventsOf_apply (w : World) (k : Nat) (change : Change) (n : Nat) :
    (w.apply k change).eventsOf n = w.eventsOf n ++ if k = n then change.events else [] := by
  rw [eventsOf, eventsOf, apply, List.filterMap_append, List.filterMap_map]
  by_cases same : k = n
  · subst same
    simp
  · simp [same]

/-- The journal holds the ids that a registry assigned. -/
theorem World.assigned_eq_events (w : World) (n : Nat) :
    w.assigned n = (w.eventsOf n).filterMap Event.assigned? := by
  rw [assigned, notices, eventsOf, List.filterMap_filterMap, List.filterMap_filterMap]
  congr 1
  funext pair
  obtain ⟨k, event⟩ := pair
  cases event <;> by_cases same : k = n <;>
    simp [Notice.ofEvent?, Notice.assigned?, Event.assigned?, same]

namespace Scene

/-- One step: the scenes before and after it, and the calls that it is. -/
structure Transition where
  before : Scene
  calls : List CallRecord
  after : Scene

namespace Transition

/-- What a registry reports in the step. -/
def events (m : Transition) (n : Nat) : List Event :=
  (m.after.world.eventsOf n).drop (m.before.world.eventsOf n).length

/-- The last strong handle to an object is dropped in the step. -/
def Destroys (m : Transition) (o : Object) : Prop :=
  m.before.world.heap.isLive o = true ∧ m.after.world.heap.isLive o = false

/-- Whether a registry sweeps in the step. If an object is destroyed in the same step, then it is
one whose destructor sweeps, so that the sweep comes after its death. -/
def sweeps (m : Transition) (n : Nat) : Bool := (m.events n).any Event.isSweep

/-- The ids that a registry gives in the step. -/
def minted (m : Transition) (n : Nat) : List ObjectId := (m.events n).filterMap Event.assigned?

theorem events_of_eq {m : Transition} {n : Nat} {events : List Event}
    (h : m.after.world.eventsOf n = m.before.world.eventsOf n ++ events) : m.events n = events := by
  rw [Transition.events, h, List.drop_left]

end Transition

/-- Steps one after another, with the scenes in between. -/
inductive Path : Scene → List Transition → Scene → Prop
  | refl (s : Scene) : Path s [] s
  | step {s m t : Scene} {path : List Transition} {calls : List CallRecord} (before : Path s path m)
      (last : Step m calls t) : Path s (path ++ [⟨m, calls, t⟩]) t

/-- The calls on a path, in order. -/
def history (path : List Transition) : List CallRecord := path.flatMap Transition.calls

theorem history_append (first second : List Transition) :
    history (first ++ second) = history first ++ history second :=
  List.flatMap_append

theorem history_singleton (m : Transition) : history [m] = m.calls := by
  simp [history]

variable {s t : Scene} {path : List Transition}

theorem Path.run (h : Path s path t) : Run s (history path) t := by
  induction h with
  | refl => exact Run.refl _
  | step before last ih =>
    rw [history_append, history_singleton]
    exact ih.step last

/-- Every run is the run of a path. -/
theorem Run.exists_path {calls : List CallRecord} (run : Run s calls t) :
    ∃ path, Path s path t ∧ history path = calls := by
  induction run with
  | refl => exact ⟨[], Path.refl _, rfl⟩
  | step before last ih =>
    obtain ⟨path, h, rfl⟩ := ih
    exact ⟨_, h.step last, by rw [history_append, history_singleton]⟩

theorem Path.sound (h : Path s path t) (sound : s.Sound) : t.Sound := h.run.sound sound

theorem Path.trans {m : Scene} {before after : List Transition} (first : Path s before m)
    (second : Path m after t) : Path s (before ++ after) t := by
  induction second with
  | refl => simpa using first
  | step path last ih =>
    rw [← List.append_assoc]
    exact ih.step last

theorem Path.eq_of_nil (h : Path s [] t) : s = t := by
  generalize nothing : ([] : List Transition) = path at h
  cases h with
  | refl => rfl
  | step before last => simp at nothing

theorem Path.last {m : Transition} (h : Path s (path ++ [m]) t) :
    Path s path m.before ∧ Step m.before m.calls m.after ∧ m.after = t := by
  generalize whole : path ++ [m] = all at h
  cases h with
  | refl => simp at whole
  | step before last =>
    obtain ⟨rfl, rfl⟩ := List.append_inj' whole rfl |>.imp_right List.singleton_inj.mp
    exact ⟨before, last, rfl⟩

/-- A path can be cut at each of its steps. -/
theorem Path.split {before after : List Transition} {m : Transition}
    (h : Path s (before ++ m :: after) t) :
    Path s before m.before ∧ Step m.before m.calls m.after ∧ Path m.after after t := by
  induction after using List.reverseRecOn generalizing t with
  | nil =>
    obtain ⟨first, step, rfl⟩ := h.last
    exact ⟨first, step, Path.refl _⟩
  | append_singleton after final ih =>
    rw [← List.cons_append, ← List.append_assoc] at h
    obtain ⟨path, step, rfl⟩ := h.last
    obtain ⟨first, middle, rest⟩ := ih path
    exact ⟨first, middle, rest.step step⟩

/-- An object that is live or not yet allocated at the end of a path was not destroyed on it. -/
theorem Path.not_destroys (h : Path s path t) (sound : s.Sound) {o : Object}
    (there : t.world.heap.isLive o = true ∨ t.world.heap.place? o = none) {m : Transition}
    (mem : m ∈ path) : ¬m.Destroys o := by
  obtain ⟨before, after, rfl⟩ := List.append_of_mem mem
  obtain ⟨first, step, rest⟩ := h.split
  rintro ⟨alive, dead⟩
  have reached := first.sound sound
  have later := rest.run.later (step.sound reached)
  have absent : m.after.world.heap.place? o = none := by
    rcases there with live | absent
    · rw [← Bool.not_eq_true] at dead
      exact (later.live o live).resolve_left dead
    · exact later.absent absent
  obtain ⟨start, layout, place⟩ := Heap.place_of_weak (reached.counted.reserved_of_live alive)
  rw [(step.later reached).absent absent] at place
  cases place

end Scene

end WeakIdentity
