import WeakIdentity.Proofs.Scene.Tokens
import WeakIdentity.Proofs.Session.History
import WeakIdentity.Proofs.Session.Staged

/-! Two sessions with the same names in worlds that are alike give the same answers, if both worlds
agree with one ledger: all that can differ is what shows the size of a table. -/

namespace WeakIdentity

/-- Whether a call removes dead entries or shows how many entries there are. -/
def RegistryCall.inspects : RegistryCall → Bool
  | .purge | .size | .isEmpty | .stats | .describe _ => true
  | _ => false

/-- Whether an action removes dead entries or shows how many entries there are. -/
def Action.inspects : Action → Bool
  | .registry _ call => call.inspects
  | .label (.describeLabeler ..) => true
  | _ => false

theorem rel_bind {α β γ δ : Type} {r : α → β → Prop} {r' : γ → δ → Prop} {a : Option α}
    {b : Option β} {f : α → Option γ} {g : β → Option δ} (related : Option.Rel r a b)
    (next : ∀ {x y}, r x y → Option.Rel r' (f x) (g y)) : Option.Rel r' (a.bind f) (b.bind g) := by
  cases related with
  | none => exact .none
  | some first => exact next first

namespace World

/-- Two worlds that are alike and agree with one ledger. -/
structure Coupled (ledger : Ledger) (w v : World) (strong weak : Multiset Object) : Prop where
  alike : w.Alike v
  sound : w.Sound strong weak
  sound' : v.Sound strong weak
  agrees : ledger.Agrees w
  agrees' : ledger.Agrees v
  vacated : w.Vacated
  vacated' : v.Vacated

theorem Alike.open_iff {w v : World} (alike : w.Alike v) {n : Nat} : w.Open n ↔ v.Open n := by
  simp only [Open, alike.isLive_eq, alike.registryNumber?_eq]

namespace Coupled

variable {ledger : Ledger} {w v : World} {strong weak : Multiset Object} {n : Nat} {o : Object}
  (coupled : Coupled ledger w v strong weak) (usable : w.Open n) (live : w.heap.isLive o = true)
include coupled

theorem minted (n : Nat) : (w.registry n).minted = (v.registry n).minted := by
  rw [coupled.agrees.minted, coupled.agrees'.minted]

include usable live

theorem observe : (w.observe n o).2 = (v.observe n o).2 := by
  have first := coupled.agrees.observe coupled.sound usable live
  rw [coupled.alike.open_iff] at usable
  rw [coupled.alike.isLive_eq] at live
  have second := coupled.agrees'.observe coupled.sound' usable live
  exact Option.some.inj (first.1.trans second.1.symm)

theorem idOf : w.idOf n o = v.idOf n o := by
  have first := coupled.agrees.ids n o usable live
  rw [coupled.alike.open_iff] at usable
  rw [coupled.alike.isLive_eq] at live
  exact first.trans (coupled.agrees'.ids n o usable live).symm

theorem forget : (w.forget n o).2 = (v.forget n o).2 := by
  have first := coupled.agrees.forget coupled.sound usable live
  rw [coupled.alike.open_iff] at usable
  rw [coupled.alike.isLive_eq] at live
  exact first.1.trans (coupled.agrees'.forget coupled.sound' usable live).1.symm

omit usable in
theorem retain : Coupled ledger (w.retain o) (v.retain o) (o ::ₘ strong) weak where
  alike := coupled.alike.retain o
  sound := coupled.sound.retain live
  sound' := coupled.sound'.retain (by rwa [← coupled.alike.isLive_eq])
  agrees := coupled.agrees.quiet (quiet_retain live)
  agrees' := coupled.agrees'.quiet (quiet_retain (by rwa [← coupled.alike.isLive_eq]))
  vacated n := (coupled.vacated n).imp_left fun usable => usable.retain live
  vacated' n := (coupled.vacated' n).imp_left fun usable =>
    usable.retain (by rwa [← coupled.alike.isLive_eq])

omit usable in
/-- Entries of live objects are swept in neither world, so that both hold the same weak references
to them. -/
theorem weakCount : w.heap.weakCount o = v.heap.weakCount o := by
  have live' : v.heap.isLive o = true := by rwa [← coupled.alike.isLive_eq]
  have told : ∀ n, (w.idOf n o).isSome = (v.idOf n o).isSome := by
    intro n
    by_cases usable : w.Open n
    · rw [coupled.idOf usable live]
    · have empty := (coupled.vacated n).resolve_left usable
      have empty' := (coupled.vacated' n).resolve_left fun usable' =>
        usable (coupled.alike.open_iff.mpr usable')
      simp [World.idOf, Registry.idOf, Registry.find?, empty, empty']
  have tokens : w.tokenCount o = v.tokenCount o := by
    have counted := coupled.sound.counted
    have counted' := coupled.sound'.counted
    rw [counted.tokenCount_eq (counted.reserved_of_live live),
      counted'.tokenCount_eq (counted'.reserved_of_live live'), coupled.alike.registries]
    simp only [told]
  have refs : w.heap.weakRefs o = v.heap.weakRefs o := by
    rw [coupled.sound.counted.weak_eq, coupled.sound'.counted.weak_eq, tokens, Heap.sharedRef,
      Heap.sharedRef, coupled.alike.isLive_eq]
  rw [Heap.weakCount_eq, Heap.weakCount_eq, refs]

end Coupled

end World

namespace Session

/-- The names are the same, and the worlds are alike. -/
structure Alike (s t : Session) : Prop where
  world : s.world.Alike t.world
  names : t = { s with world := t.world }

/-- Two results of one action are alike; the answers are the same if they are to be compared. -/
def Agree (compare : Bool) : Option (Session × Answer) → Option (Session × Answer) → Prop :=
  Option.Rel fun first second =>
    first.1.Alike second.1 ∧ (compare = true → first.2 = second.2)

/-- The worlds are alike, and the names are the same but for those of locations. -/
structure Corresponds (s t : Session) : Prop where
  world : s.world.Alike t.world
  names : t = { s with world := t.world, locations := t.locations, tally := t.tally }

/-- The locations of a session. -/
def labels (s : Session) : Bindings String Location × Tally := (s.locations, s.tally)

theorem Corresponds.alike {s t : Session} (corresponds : s.Corresponds t)
    (same : s.labels = t.labels) : s.Alike t := by
  obtain ⟨locations, tally⟩ := Prod.mk.inj same
  refine ⟨corresponds.world, ?_⟩
  rw [corresponds.names, ← locations, ← tally]

variable {s : Session} {v : World} {locations : Bindings String Location} {tally : Tally}

/-! ### Actions on handles -/

/-- Two staged actions of corresponding sessions drop the same handles and keep the locations that
their sessions had; the answers are the same if they are to be compared. -/
def StagedAgree (compare : Bool) (s t : Session) : Option Staged → Option Staged → Prop :=
  Option.Rel fun first second =>
    first.session.Corresponds second.session ∧ first.session.labels = s.labels ∧
      second.session.labels = t.labels ∧ first.dropped = second.dropped ∧
      (compare = true → first.answer = second.answer)

theorem agree_of_staged {t : Session} {alloc alloc' : Allocator} {action action' : HandleAction}
    {compare : Bool} (same : s.labels = t.labels)
    (h : StagedAgree compare s t (s.stage? alloc action) (t.stage? alloc' action')) :
    Agree compare (s.handle? alloc action) (t.handle? alloc' action') := by
  rw [handle?_eq, handle?_eq]
  revert h
  generalize s.stage? alloc action = first
  generalize t.stage? alloc' action' = second
  intro h
  cases h with
  | none => exact .none
  | some related =>
    obtain ⟨corresponds, labels, labels', dropped, answers⟩ := related
    have alike := corresponds.alike (labels.trans (same.trans labels'.symm))
    refine .some ⟨⟨?_, ?_⟩, answers⟩
    · rw [Staged.finish, Staged.finish, ← dropped]
      exact alike.world.settle _
    · rw [Staged.finish, Staged.finish, ← dropped, alike.names]
      rfl

theorem corresponds_releaseWeak {w : World} (alike : w.Alike v) (weak : Option Object) :
    Corresponds ({ s with world := w }.releaseWeak weak)
      ({ s with world := v, locations, tally }.releaseWeak weak) := by
  cases weak with
  | none => exact ⟨alike, rfl⟩
  | some o => exact ⟨alike.releaseWeak o, rfl⟩

theorem labels_releaseWeak (s : Session) (weak : Option Object) :
    (s.releaseWeak weak).labels = s.labels := by
  cases weak <;> rfl

theorem staged_bindWeak {w : World} (alike : w.Alike v) (name : String) (weak : Option Object) :
    StagedAgree true s { s with world := v, locations, tally }
      (some { session := { s with world := w }.bindWeak name weak })
      (some { session := { s with world := v, locations, tally }.bindWeak name weak }) :=
  .some ⟨corresponds_releaseWeak (s := { s with weaks := s.weaks.insert name weak }) alike _,
    labels_releaseWeak _ _, labels_releaseWeak _ _, rfl, fun _ => rfl⟩

theorem staged_create {alloc alloc' : Allocator} {kind kind' : Kind} {slot : Slot} {name : String}
    (alike : s.world.Alike v) (layout : kind.layout = kind'.layout)
    (shape : (s.content? name kind).map Content.shape = (s.content? name kind').map Content.shape) :
    StagedAgree true s { s with world := v, locations, tally }
      (s.stage? alloc (.create slot kind name))
      ({ s with world := v, locations, tally }.stage? alloc' (.create slot kind' name)) := by
  have unchanged : ({ s with world := v, locations, tally } : Session).content? name kind' =
      s.content? name kind' := by
    cases kind' <;> rfl
  simp only [stage?, unchanged]
  cases first : s.content? name kind with
  | none =>
    rw [first, Option.map_none, eq_comm, Option.map_eq_none_iff] at shape
    rw [shape]
    exact .none
  | some content =>
    rw [first, Option.map_some, eq_comm, Option.map_eq_some_iff] at shape
    obtain ⟨content', second, same⟩ := shape
    have made := alike.create alloc alloc' kind.layout _ _ same.symm
    have next : (s.world.create alloc kind.layout content).2 =
        (v.create alloc' kind.layout content').2 := by
      rw [World.create_eq, World.create_eq]
      exact alike.nextObject_eq
    rw [second, ← layout]
    simp only [Option.bind_eq_bind, Option.bind_some, next]
    exact .some ⟨⟨made, rfl⟩, rfl, rfl, rfl, fun _ => rfl⟩

theorem agree_create {alloc alloc' : Allocator} {kind kind' : Kind} {slot : Slot} {name : String}
    (alike : s.world.Alike v) (layout : kind.layout = kind'.layout)
    (shape : (s.content? name kind).map Content.shape = (s.content? name kind').map Content.shape) :
    Agree true (s.handle? alloc (.create slot kind name))
      ({ s with world := v }.handle? alloc' (.create slot kind' name)) :=
  agree_of_staged rfl (staged_create alike layout shape)

theorem staged_openRegistry {alloc alloc' : Allocator} {name : String}
    {options options' : Option Json.Value} {r r' : Registry} (alike : s.world.Alike v)
    (first : configure alloc options = .ok r) (second : configure alloc' options' = .ok r') :
    StagedAgree true s { s with world := v, locations, tally }
      (s.stage? alloc (.openRegistry name options))
      ({ s with world := v, locations, tally }.stage? alloc' (.openRegistry name options')) := by
  have next : (s.world.createRegistry alloc r).2 = (v.createRegistry alloc' r').2 := by
    rw [World.createRegistry_eq, World.createRegistry_eq]
    exact alike.nextObject_eq
  simp only [stage?, first, second, next]
  exact .some ⟨⟨alike.createRegistry alloc alloc' r r', rfl⟩, rfl, rfl, rfl, fun _ => rfl⟩

theorem agree_openRegistry {alloc alloc' : Allocator} {name : String}
    {options options' : Option Json.Value} {r r' : Registry} (alike : s.world.Alike v)
    (first : configure alloc options = .ok r) (second : configure alloc' options' = .ok r') :
    Agree true (s.handle? alloc (.openRegistry name options))
      ({ s with world := v }.handle? alloc' (.openRegistry name options')) :=
  agree_of_staged rfl (staged_openRegistry alike first second)

/-- What a registry is made of depends on which tables fit, not on where blocks are put. -/
theorem configure_congr {alloc alloc' : Allocator} (fits : alloc.fits = alloc'.fits)
    (options : Option Json.Value) : configure alloc options = configure alloc' options := by
  simp only [configure, Registry.withOptions, fits]

/-- An action that needs a value that both sessions have under one name. -/
theorem StagedAgree.bind {α : Type} {t : Session} {compare : Bool} (found : Option α)
    {f g : α → Option Staged} (next : ∀ x, StagedAgree compare s t (f x) (g x)) :
    StagedAgree compare s t (found.bind f) (found.bind g) := by
  cases found with
  | none => exact .none
  | some x => exact next x

section Stages

variable (alike : s.world.Alike v)
include alike

theorem staged_retain (slot : Slot) (handle : Handle) :
    StagedAgree true s { s with world := v, locations, tally }
      (some ({ s with world := s.world.retain handle.object }.stageHandle slot handle))
      (some (stageHandle { s with world := v.retain handle.object, locations, tally } slot
        handle)) :=
  .some ⟨⟨alike.retain handle.object, rfl⟩, rfl, rfl, rfl, fun _ => rfl⟩

theorem staged_retainLabeler (name : String) (labeler : Labeler) :
    StagedAgree true s { s with world := v, locations, tally }
      (some (stageLabeler { s with world := labeler.owned.foldl World.retain s.world } name
        labeler))
      (some (stageLabeler
        { s with world := labeler.owned.foldl World.retain v, locations, tally } name
        labeler)) := by
  cases labeler with
  | processWide => exact .some ⟨⟨alike, rfl⟩, rfl, rfl, rfl, fun _ => rfl⟩
  | shared object => exact .some ⟨⟨alike.retain object, rfl⟩, rfl, rfl, rfl, fun _ => rfl⟩

variable (alloc alloc' : Allocator)

theorem staged_link (node target : Slot) :
    StagedAgree true s { s with world := v, locations, tally } (s.stage? alloc (.link node target))
      (stage? { s with world := v, locations, tally } alloc' (.link node target)) := by
  simp only [stage?, handle?, Option.bind_eq_bind, Option.map_bind]
  refine .bind (s.handles.get? node) fun nodeHandle => ?_
  simp only [Function.comp_apply, Option.map_bind]
  refine .bind (s.handles.get? target) fun targetHandle => ?_
  refine rel_bind (alike.link? nodeHandle.object targetHandle.object) fun next => ?_
  exact .some ⟨⟨next, rfl⟩, rfl, rfl, rfl, fun _ => rfl⟩

theorem staged_unlink (node : Slot) :
    StagedAgree true s { s with world := v, locations, tally } (s.stage? alloc (.unlink node))
      (stage? { s with world := v, locations, tally } alloc' (.unlink node)) := by
  simp only [stage?]
  refine .bind (s.handles.get? node) fun handle => ?_
  split
  · next name links content =>
    rw [alike.content_node content]
    have emptied := alike.setContent handle.object (.node name [])
    exact .some ⟨⟨emptied, rfl⟩, rfl, rfl, rfl, fun _ => rfl⟩
  · next other =>
    split
    · next name links content =>
      exact absurd (alike.symm.content_node content) (other name links)
    · exact .none

theorem staged_weakClone (source target : String) :
    StagedAgree true s { s with world := v, locations, tally }
      (s.stage? alloc (.weakClone source target))
      (stage? { s with world := v, locations, tally } alloc' (.weakClone source target)) := by
  simp only [stage?, handle?, Option.bind_eq_bind, Option.map_bind]
  refine .bind (s.weaks.get? source) fun weak => ?_
  cases weak with
  | none => exact staged_bindWeak alike target none
  | some o => exact staged_bindWeak (alike.retainWeak o) target _

theorem staged_upgrade (name : String) (target : Slot) :
    StagedAgree true s { s with world := v, locations, tally }
      (s.stage? alloc (.upgrade name target))
      (stage? { s with world := v, locations, tally } alloc' (.upgrade name target)) := by
  simp only [stage?]
  refine .bind (s.weaks.get? name) fun weak => ?_
  cases weak with
  | none => exact .some ⟨⟨alike, rfl⟩, rfl, rfl, rfl, fun _ => rfl⟩
  | some o =>
    have same := alike.isLive_eq o
    cases live : s.world.heap.isLive o with
    | false =>
      simp only [World.upgrade?, live, ← same]
      exact .some ⟨⟨alike, rfl⟩, rfl, rfl, rfl, fun _ => rfl⟩
    | true =>
      simp only [World.upgrade?, live, ← same]
      exact .some ⟨⟨alike.retain o, rfl⟩, rfl, rfl, rfl, fun _ => rfl⟩

end Stages

/-- Whether an action returns the counts of an object, which include the entries for it. -/
def showsCounts : HandleAction → Bool
  | .counts _ => true
  | _ => false

/-- The first stage of one action, wherever new blocks are put. -/
theorem agree_stage? (alike : s.world.Alike v) {alloc alloc' : Allocator}
    (fits : alloc.fits = alloc'.fits) (action : HandleAction) :
    StagedAgree (!showsCounts action) s { s with world := v, locations, tally }
      (s.stage? alloc action)
      ({ s with world := v, locations, tally }.stage? alloc' action) := by
  cases action with
  | create slot kind name => exact staged_create alike rfl rfl
  | clone source target => exact .bind (s.handles.get? source) (staged_retain alike target)
  | coerce source view target =>
    exact .bind (s.handles.get? source) fun handle =>
      staged_retain alike target { handle with view }
  | shareRegistry registry target =>
    exact .bind (s.registries.get? registry) fun object => staged_retain alike target { object }
  | drop slot =>
    exact .bind (s.handles.get? slot) fun handle =>
      .some ⟨⟨alike, rfl⟩, rfl, rfl, rfl, fun _ => rfl⟩
  | link node target => exact staged_link alike alloc alloc' node target
  | unlink node => exact staged_unlink alike alloc alloc' node
  | counts slot =>
    simp only [stage?, handle?, Option.bind_eq_bind, Option.map_bind]
    refine .bind (s.handles.get? slot) fun handle => ?_
    exact .some ⟨⟨alike, rfl⟩, rfl, rfl, rfl, fun shown => by cases shown⟩
  | downgrade source target =>
    simp only [stage?, handle?, Option.bind_eq_bind, Option.map_bind]
    refine .bind (s.handles.get? source) fun handle => ?_
    exact staged_bindWeak (alike.retainWeak handle.object) target _
  | weakNew target => exact staged_bindWeak alike target none
  | weakClone source target => exact staged_weakClone alike alloc alloc' source target
  | weakDrop name =>
    simp only [stage?, handle?, Option.bind_eq_bind, Option.map_bind]
    refine .bind (s.weaks.get? name) fun weak => ?_
    exact .some ⟨corresponds_releaseWeak (s := { s with weaks := s.weaks.erase name }) alike weak,
      labels_releaseWeak _ _, labels_releaseWeak _ _, rfl, fun _ => rfl⟩
  | upgrade name target => exact staged_upgrade alike alloc alloc' name target
  | openRegistry name options =>
    have same := configure_congr fits options
    cases h : configure alloc options with
    | ok r => exact staged_openRegistry alike h (same.symm.trans h)
    | error refusal =>
      simp only [stage?, ← same, h]
      exact .some ⟨⟨alike, rfl⟩, rfl, rfl, rfl, fun _ => rfl⟩
  | dropRegistry name =>
    exact .bind (s.registries.get? name) fun object =>
      .some ⟨⟨alike, rfl⟩, rfl, rfl, rfl, fun _ => rfl⟩
  | openLabeler name registry =>
    exact .bind (s.registryRef? registry) (staged_retainLabeler alike name)
  | cloneLabeler source target =>
    exact .bind (s.labelers.get? source) (staged_retainLabeler alike target)
  | dropLabeler name =>
    exact .bind (s.labelers.get? name) fun labeler =>
      .some ⟨⟨alike, rfl⟩, rfl, rfl, rfl, fun _ => rfl⟩

/-- One action on handles, wherever new blocks are put. -/
theorem agree_handle? {ledger : Ledger}
    (coupled : World.Coupled ledger s.world v s.strongHandles s.weakHandles)
    {alloc alloc' : Allocator} (fits : alloc.fits = alloc'.fits) (action : HandleAction) :
    Agree true (s.handle? alloc action) ({ s with world := v }.handle? alloc' action) := by
  have alike := coupled.alike
  have staged : StagedAgree _ s { s with world := v } (s.stage? alloc action)
      ({ s with world := v }.stage? alloc' action) := agree_stage? alike fits action
  cases action with
  | counts slot =>
    simp only [handle?]
    cases found : s.handles.get? slot with
    | none => exact .none
    | some handle =>
      have weaks := coupled.weakCount (coupled.sound.counted.live_of_mem (handle_mem found))
      exact .some ⟨⟨alike, rfl⟩, fun _ => by rw [alike.strongCount_eq, weaks]⟩
  | _ => exact agree_of_staged rfl staged

/-! ### Calls and labels -/

variable {ledger : Ledger}

theorem agree_ask? {n : Nat}
    (coupled : World.Coupled ledger s.world v s.strongHandles s.weakHandles)
    (usable : s.world.Open n) (call : RegistryCall) :
    Agree (!call.inspects) (s.ask? n call) ({ s with world := v }.ask? n call) := by
  have alike := coupled.alike
  have live : ∀ {slot handle}, s.handles.get? slot = some handle →
      s.world.heap.isLive handle.object = true :=
    fun found => coupled.sound.counted.live_of_mem (handle_mem found)
  cases call with
  | observe slot =>
    simp only [ask?]
    cases found : s.handles.get? slot with
    | none => exact .none
    | some handle =>
      refine .some ⟨⟨alike.apply n n _ _, rfl⟩, fun _ => ?_⟩
      exact congrArg Answer.id (coupled.observe usable (live found))
  | tryObserve name =>
    simp only [ask?]
    cases s.weaks.get? name with
    | none => exact .none
    | some weak =>
      cases weak with
      | none => exact .some ⟨⟨alike, rfl⟩, fun _ => rfl⟩
      | some o =>
        have same := alike.isLive_eq o
        cases alive : s.world.heap.isLive o with
        | false =>
          simp only [Option.bind_eq_bind, Option.bind_some, World.tryObserve, World.upgrade?, alive,
            ← same]
          exact .some ⟨⟨alike, rfl⟩, fun _ => rfl⟩
        | true =>
          simp only [Option.bind_eq_bind, Option.bind_some, World.tryObserve, World.upgrade?, alive,
            ← same]
          have held := coupled.retain alive
          refine .some ⟨⟨(held.alike.apply n n _ _).release o, rfl⟩, fun _ => ?_⟩
          exact congrArg Answer.id (held.observe (usable.retain alive)
            (held.sound.counted.live_of_mem (Multiset.mem_cons_self o _)))
  | idOf slot =>
    simp only [ask?]
    cases found : s.handles.get? slot with
    | none => exact .none
    | some handle =>
      exact .some ⟨⟨alike, rfl⟩, fun _ => congrArg Answer.lookup (coupled.idOf usable (live found))⟩
  | forget slot =>
    simp only [ask?]
    cases found : s.handles.get? slot with
    | none => exact .none
    | some handle =>
      exact .some ⟨⟨alike.apply n n _ _, rfl⟩,
        fun _ => congrArg Answer.lookup (coupled.forget usable (live found))⟩
  | minted =>
    refine .some ⟨⟨alike, rfl⟩, fun _ => ?_⟩
    rw [coupled.minted]
  | purge => exact .some ⟨⟨alike.apply n n _ _, rfl⟩, fun shown => by cases shown⟩
  | size | isEmpty | stats | describe indented =>
    exact .some ⟨⟨alike, rfl⟩, fun shown => by cases shown⟩

theorem alike_keepLocation {w : World} (alike : w.Alike v) (keep : Option String)
    (location : Location) :
    Alike ({ s with world := w }.keepLocation keep location)
      ({ s with world := v }.keepLocation keep location) := by
  cases keep <;> exact ⟨alike, rfl⟩

theorem labelQuery?_alike {s : Session} (alike : s.world.Alike v) (name : String) (slot : Slot) :
    ({ s with world := v } : Session).labelQuery? name slot = s.labelQuery? name slot := by
  have number : ∀ labeler, s.world.refNumber? labeler = v.refNumber? labeler :=
    fun labeler => World.refNumber?_of_registryNumber? alike.registryNumber?_eq
  simp only [labelQuery?, ← number]

theorem agree_labelOwner? (coupled : World.Coupled ledger s.world v s.strongHandles s.weakHandles)
    (name : String) (slot : Slot) (keep : Option String) (label : ObjectId → Location) :
    Agree true (s.labelOwner? name slot keep label)
      ({ s with world := v }.labelOwner? name slot keep label) := by
  simp only [labelOwner?, labelQuery?_alike coupled.alike]
  cases asks : s.labelQuery? name slot with
  | none => exact .none
  | some query =>
    obtain ⟨labeler, handle, n, foundLabeler, found, number, rfl⟩ := labelQuery?_eq_some asks
    have id := coupled.observe (open_of_labeler (held_of_scene coupled.sound) foundLabeler number)
      (coupled.sound.counted.live_of_mem (handle_mem found))
    simp only [Option.bind_eq_bind, Option.bind_some, ← id]
    exact .some ⟨alike_keepLocation (coupled.alike.apply n n _ _) keep _, fun _ => rfl⟩

theorem agree_label? (coupled : World.Coupled ledger s.world v s.strongHandles s.weakHandles)
    (action : LabelAction) :
    Agree (!(Action.label action).inspects) (s.label? action)
      ({ s with world := v }.label? action) := by
  have alike := coupled.alike
  cases action with
  | field name slot fieldName keep =>
    rw [label?_field, label?_field]
    exact agree_labelOwner? coupled name slot keep _
  | element name slot index keep =>
    rw [label?_element, label?_element]
    exact agree_labelOwner? coupled name slot keep _
  | static name typeName fieldName keep =>
    simp only [label?]
    cases s.labelers.get? name with
    | none => exact .none
    | some labeler => exact .some ⟨alike_keepLocation alike keep _, fun _ => rfl⟩
  | describeLabeler name indented =>
    simp only [label?]
    cases s.labelers.get? name with
    | none => exact .none
    | some labeler => exact .some ⟨⟨alike, rfl⟩, fun shown => by cases shown⟩
  | equal first second =>
    simp only [label?]
    cases s.locations.get? first with
    | none => exact .none
    | some a =>
      cases s.locations.get? second with
      | none => exact .none
      | some b => exact .some ⟨⟨alike, rfl⟩, fun _ => rfl⟩
  | describe name indented =>
    simp only [label?]
    cases s.locations.get? name with
    | none => exact .none
    | some location => exact .some ⟨⟨alike, rfl⟩, fun _ => rfl⟩
  | record name =>
    simp only [label?]
    cases s.locations.get? name with
    | none => exact .none
    | some location => exact .some ⟨⟨alike, rfl⟩, fun _ => rfl⟩

theorem registryNumber?_alike (alike : s.world.Alike v) (name : RegistryName) :
    s.registryNumber? name = ({ s with world := v } : Session).registryNumber? name := by
  cases name with
  | processWide => rfl
  | named name =>
    simp only [registryNumber?]
    congr 1
    exact funext alike.registryNumber?_eq

/-- The same action of two sessions. -/
theorem agree_act? (coupled : World.Coupled ledger s.world v s.strongHandles s.weakHandles)
    {alloc alloc' : Allocator} (fits : alloc.fits = alloc'.fits) (action : Action) :
    Agree (!action.inspects) (s.act? alloc action) ({ s with world := v }.act? alloc' action) := by
  cases action with
  | handle action => exact agree_handle? coupled fits action
  | label action => exact agree_label? coupled action
  | registry name call =>
    simp only [act?, ← registryNumber?_alike coupled.alike]
    cases number : s.registryNumber? name with
    | none => exact .none
    | some n =>
      have usable := open_of_registryNumber? (held_of_scene coupled.sound) number
      exact agree_ask? coupled usable call

theorem query?_alike (alike : s.world.Alike v) (action : Action) :
    s.query? action = ({ s with world := v } : Session).query? action := by
  cases action with
  | handle action => rfl
  | registry name call =>
    simp only [query?, ← registryNumber?_alike alike]
    cases call <;> simp only [callQuery?, ← alike.isLive_eq]
  | label action => cases action <;> simp only [query?, labelQuery?_alike alike]

end Session

end WeakIdentity
