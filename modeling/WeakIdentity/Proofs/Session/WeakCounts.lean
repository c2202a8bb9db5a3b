import Mathlib.Data.Set.Card
import WeakIdentity.Proofs.Scene.Tokens
import WeakIdentity.Proofs.Session.History

/-! Weak counts: every weak reference to a live object is a weak handle that is held, or the one
entry for it in a registry. So a block is kept by these references only. -/

namespace WeakIdentity

namespace World

variable {w : World} {strong weak : Multiset Object} {n : Nat} {o p : Object}

/-- The registries that there are and have an entry for an object. -/
def holders (w : World) (o : Object) : Set Nat := {n | w.Open n ∧ o ∈ (w.registry n).tokens}

section Counted

variable (counted : w.Counted strong weak) (live : w.heap.isLive o = true)
include counted live

theorem Counted.mem_tokens (n : Nat) : o ∈ (w.registry n).tokens ↔ (w.idOf n o).isSome := by
  rw [← List.count_pos_iff, counted.count_tokens (counted.reserved_of_live live)]
  split <;> simp [*]

/-- Only registries that there are have entries, so that they are all of the holders. -/
theorem Counted.tokenCount_eq_ncard (vacated : w.Vacated) :
    w.tokenCount o = (w.holders o).ncard := by
  have bound : ∀ n, (w.idOf n o).isSome → n < w.registries.size := by
    intro n some
    by_contra beyond
    rw [← counted.mem_tokens live, registry_of_size_le (Nat.not_lt.mp beyond)] at some
    cases some
  have named : w.holders o =
      ↑((List.range w.registries.size).filter fun n => (w.idOf n o).isSome).toFinset := by
    ext n
    simp only [holders, Set.mem_ofPred_eq, List.coe_toFinset, List.mem_filter, List.mem_range,
      counted.mem_tokens live]
    constructor
    · rintro ⟨-, some⟩
      exact ⟨bound n some, some⟩
    · rintro ⟨-, some⟩
      refine ⟨(vacated n).resolve_right fun empty => ?_, some⟩
      rw [← counted.mem_tokens live, Registry.tokens, empty] at some
      cases some
  rw [counted.tokenCount_eq (counted.reserved_of_live live), named, Set.ncard_coe_finset,
    List.toFinset_card_of_nodup (List.nodup_range.filter _), List.countP_eq_length_filter]

theorem Counted.weakCount_eq :
    w.heap.weakCount o = weak.count o + w.tokenCount o := by
  rw [Heap.weakCount_eq, counted.weak_eq, Heap.sharedRef, if_pos live, Nat.add_sub_cancel]

end Counted

/-! ### What changes a weak count -/

section Changes

variable (sound : w.Sound strong weak) (alive : w.heap.isLive p = true)
include sound alive

/-- The weak count of a live object changes as its entries do. -/
theorem weakCount_apply {v : World} {change : Change} (applied : v = w.apply n change)
    (after : v.Sound strong weak) (bound : n < w.registries.size) :
    v.heap.weakCount p + (if (w.idOf n p).isSome then 1 else 0) =
      w.heap.weakCount p + if (v.idOf n p).isSome then 1 else 0 := by
  subst applied
  have alive' : (w.apply n change).heap.isLive p = true := (isLive_apply w n change p).trans alive
  have before := sound.counted.count_tokens (sound.counted.reserved_of_live alive) n
  have later := after.counted.count_tokens (after.counted.reserved_of_live alive') n
  rw [registry_apply bound, if_pos rfl] at later
  have tables := tokenCount_apply bound change p
  rw [after.counted.weakCount_eq alive', sound.counted.weakCount_eq alive, ← before, ← later]
  omega

variable (usable : w.Open n) (held : o ∈ strong)
include usable held

/-- To observe an object takes a weak reference to it if there is no entry yet, and none to
others. -/
theorem weakCount_observe :
    (w.observe n o).1.heap.weakCount p =
      w.heap.weakCount p + if p = o ∧ o ∉ (w.registry n).tokens then 1 else 0 := by
  have bound := usable.lt_size sound.numbered
  have live := sound.counted.live_of_mem held
  simp only [sound.counted.mem_tokens live]
  cases known : w.idOf n o with
  | some id =>
    rw [observe_of_known known]
    simp [World.apply]
  | none =>
    have moved := weakCount_apply sound alive (congrArg Prod.fst (observe_eq w n o))
      (sound.observe bound live) bound
    rw [idOf_observe known sound bound live n alive] at moved
    by_cases same : p = o
    · subst same
      simpa [known] using moved
    · simpa [same] using moved

/-- To forget an object releases the weak reference to it. -/
theorem weakCount_forget :
    (w.forget n o).1.heap.weakCount p +
      (if p = o ∧ o ∈ (w.registry n).tokens then 1 else 0) = w.heap.weakCount p := by
  have bound := usable.lt_size sound.numbered
  have live := sound.counted.live_of_mem held
  simp only [sound.counted.mem_tokens live]
  cases known : w.idOf n o with
  | none =>
    rw [forget_of_unknown known]
    simp [World.apply]
  | some id =>
    have moved := weakCount_apply sound alive (congrArg Prod.fst (forget_eq w n o))
      (sound.forget bound o) bound
    rw [idOf_forget known sound bound live n alive] at moved
    by_cases same : p = o
    · subst same
      simpa [known] using moved
    · simpa [same] using moved

end Changes

/-- The destruction of a registry releases all its weak references. -/
theorem weakCount_release (sound : w.Sound (o ::ₘ strong) weak) (last : w.heap.strongCount o = 1)
    (number : w.registryNumber? o = some n) (alive : w.heap.isLive p = true) (other : p ≠ o) :
    (w.release o).heap.weakCount p + (if p ∈ (w.registry n).tokens then 1 else 0) =
      w.heap.weakCount p := by
  obtain ⟨block, hb, content⟩ := block_of_content (registryNumber?_eq_some.mp number)
  have bound := (sound.numbered.bounds o n number).2
  rw [Heap.strongCount, hb] at last
  have none : (Content.registry n).owned = [] := rfl
  have closed : w.release o =
      (({ w with heap := w.heap.unretain o } : World).close n).releaseWeak o := by
    rw [release, settle, perform_last hb last, content, finalize, none, List.map_nil,
      List.nil_append, List.singleton_append, settle, perform, List.nil_append, settle]
    rfl
  have refs : (w.release o).heap.weakRefs p =
      w.heap.weakRefs p - (w.registry n).tokens.count p := by
    rw [closed, World.releaseWeak, Heap.weakRefs_releaseWeak, if_neg other, Nat.sub_zero, close,
      weakRefs_apply (by simp [Registry.close]), ← Heap.weakRefs_unretain w.heap o p]
    rfl
  -- The entries of the registry are among those that the count accounts for.
  have table := tokenCount_apply bound (w.registry n).close p
  have total := sound.counted.weak_eq p
  rw [Heap.sharedRef, if_pos alive] at total
  rw [Heap.weakCount_eq, Heap.weakCount_eq, refs,
    ← List.Nodup.count (sound.counted.nodup_tokens n)]
  have gone : (w.registry n).close.registry.tokens.count p = 0 := rfl
  omega

end World

namespace Session

variable {s : Session} {o : Object}

/-- The weak handles of a session, counted by name. -/
theorem count_weakHandles (s : Session) (o : Object) :
    s.weakHandles.count o = s.weaks.values.count (some o) := by
  rw [weakHandles, Bindings.objects, Multiset.coe_count]
  induction s.weaks.values with
  | nil => rfl
  | cons weak rest ih =>
    rw [List.flatMap_cons, List.count_append, ih, List.count_cons, Nat.add_comm]
    cases weak <;> simp [List.count_singleton]

theorem act_counts {slot : Slot} {handle : Handle} (found : s.handles.get? slot = some handle)
    (alloc : Allocator) :
    (s.act alloc (.handle (.counts slot))).2 =
      .counts (s.world.heap.strongCount handle.object) (s.world.heap.weakCount handle.object) := by
  simp [act, act?, handle?, found]

theorem act_observe {name : RegistryName} {n : Nat} (number : s.registryNumber? name = some n)
    {slot : Slot} {handle : Handle} (found : s.handles.get? slot = some handle)
    (alloc : Allocator) :
    (s.act alloc (.registry name (.observe slot))).1.world =
      (s.world.observe n handle.object).1 := by
  simp [act, act?, ask?, number, found, World.observe_handle _ _ handle]

end Session

namespace Scene

open World

variable {s : Scene} {history : List CallRecord}

theorem Reachable.weakCount_eq (h : Reachable history s) {o : Object}
    (live : s.world.heap.isLive o = true) :
    s.world.heap.weakCount o = s.weak.count o + (s.world.holders o).ncard := by
  have counted := h.sound.counted
  rw [counted.weakCount_eq live,
    counted.tokenCount_eq_ncard live (Run.vacated h sound_start vacated_start)]

/-- Weak counts account for every reference. In every state that can be reached, the weak count of a
live object is the number of the weak handles to it and of the registries that there are and have an
entry for it, each of which has one. To observe an object adds to its count just if there was no
entry, through whatever view; to forget it releases that reference, and the end of a registry
releases those of all its entries. -/
theorem weak_counts_accounted (h : Reachable history s) :
    (∀ o, s.world.heap.isLive o = true →
      s.world.heap.weakCount o = s.weak.count o + (s.world.holders o).ncard) ∧
    (∀ n o, (s.world.registry n).tokens.count o ≤ 1) ∧
    (∀ n o p, s.world.Open n → o ∈ s.strong → s.world.heap.isLive p = true →
      (s.world.observe n o).1.heap.weakCount p =
        s.world.heap.weakCount p + if p = o ∧ o ∉ (s.world.registry n).tokens then 1 else 0) ∧
    (∀ n o p, s.world.Open n → o ∈ s.strong → s.world.heap.isLive p = true →
      (s.world.forget n o).1.heap.weakCount p +
        (if p = o ∧ o ∈ (s.world.registry n).tokens then 1 else 0) = s.world.heap.weakCount p) ∧
    (∀ n o p, o ∈ s.strong → s.world.heap.strongCount o = 1 → s.world.registryNumber? o = some n →
      s.world.heap.isLive p = true → p ≠ o →
      (s.world.release o).heap.weakCount p +
        (if p ∈ (s.world.registry n).tokens then 1 else 0) = s.world.heap.weakCount p) ∧
    (∀ (session : Session) alloc slot handle, session.scene = s →
      session.handles.get? slot = some handle →
      (session.act alloc (.handle (.counts slot))).2 =
        .counts (s.world.heap.strongCount handle.object)
          (session.weaks.values.count (some handle.object) +
            (s.world.holders handle.object).ncard) ∧
      ∀ name n p, session.registryNumber? name = some n →
        handle.object ∈ (s.world.registry n).tokens →
        (session.act alloc (.registry name (.observe slot))).1.world.heap.weakCount p =
          s.world.heap.weakCount p) := by
  have sound : s.Sound := h.sound
  refine ⟨fun o live => h.weakCount_eq live, fun n o => ?_, ?_, ?_, ?_, ?_⟩
  · exact List.nodup_iff_count_le_one.mp (sound.counted.nodup_tokens n) o
  · exact fun n o p usable held alive => weakCount_observe sound alive usable held
  · exact fun n o p usable held alive => weakCount_forget sound alive usable held
  · intro n o p held last number alive other
    obtain ⟨strong, others⟩ := Multiset.exists_cons_of_mem held
    have known : s.world.Sound (o ::ₘ strong) s.weak := others ▸ sound
    exact weakCount_release known last number alive other
  · rintro session alloc slot handle rfl found
    have live := sound.counted.live_of_mem (Session.handle_mem found)
    refine ⟨?_, fun name n p number entry => ?_⟩
    · rw [Session.act_counts found, ← Session.count_weakHandles]
      exact congrArg _ (h.weakCount_eq live)
    · rw [sound.counted.mem_tokens live, Option.isSome_iff_exists] at entry
      obtain ⟨id, known⟩ := entry
      rw [Session.act_observe number found, observe_of_known (w := session.world) known]
      rfl

/-- A registry has an entry in itself, one in the process-wide registry and one in another registry,
and two weak handles. Its own name is dropped, so that handles and a labeler keep it. -/
def thriceRegistered : List Action :=
  [.handle (.openRegistry "r" none), .handle (.shareRegistry "r" (.named "h")),
    .registry (.named "r") (.observe (.named "h")), .registry .processWide (.observe (.named "h")),
    .handle (.openRegistry "q" none), .registry (.named "q") (.observe (.named "h")),
    .handle (.openLabeler "l" (.named "r")), .handle (.downgrade (.named "h") "w"),
    .handle (.weakClone "w" "v"), .handle (.coerce (.named "h") .any (.named "g")),
    .registry (.named "r") (.observe (.named "g")), .handle (.dropRegistry "r")]

/-- Three registries and two handles make five, of which the end of one registry takes one. -/
theorem weak_counts_accounted_thrice :
    ∃ s, (({} : Session).run .beyond thriceRegistered).1 = s ∧
      Reachable (({} : Session).history .beyond thriceRegistered) s.scene ∧
      s.world.heap.weakCount ⟨0⟩ = 5 ∧ s.weakHandles.count ⟨0⟩ = 2 ∧
      (s.world.holders ⟨0⟩).ncard = 3 ∧ (s.world.release ⟨1⟩).heap.weakCount ⟨0⟩ + 1 = 5 := by
  obtain ⟨s, now⟩ : ∃ s, (({} : Session).run .beyond thriceRegistered).1 = s := ⟨_, rfl⟩
  have h : Reachable _ s.scene := now ▸ Session.reachable_run .beyond thriceRegistered
  have live : s.world.heap.isLive ⟨0⟩ = true := by rw [← now]; decide +kernel
  have five : s.world.heap.weakCount ⟨0⟩ = 5 := by rw [← now]; decide +kernel
  have two : s.weakHandles.count ⟨0⟩ = 2 := by rw [← now]; decide +kernel
  obtain ⟨counts, -, -, -, closes, -⟩ := weak_counts_accounted h
  have total : s.world.heap.weakCount ⟨0⟩ =
      s.weakHandles.count ⟨0⟩ + (s.world.holders ⟨0⟩).ncard := counts ⟨0⟩ live
  have fewer := closes 2 ⟨1⟩ ⟨0⟩ (by rw [← now]; decide +kernel) (by rw [← now]; decide +kernel)
    (by rw [← now]; decide +kernel) live (by decide)
  rw [if_pos (by rw [← now]; decide +kernel)] at fewer
  exact ⟨s, now, h, five, two, by omega, fewer.trans five⟩

end Scene

end WeakIdentity
