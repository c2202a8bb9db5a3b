import WeakIdentity.Proofs.Session.Alike

/-! Reclamation cannot be seen in ids. Runs of a program that differ in the options of registries,
in where blocks are put, and in purges, by calls or by destructors, return the same ids
and destroy the same objects. -/

namespace WeakIdentity

open Scene Ledger

/-- Two programs that are the same but for options, which are accepted in both of them, and for
purges. -/
inductive Variant (alloc : Allocator) : List Action → List Action → Prop
  | nil : Variant alloc [] []
  | same {first second} (action : Action) (rest : Variant alloc first second) :
      Variant alloc (action :: first) (action :: second)
  | options {first second} (name : String) {options options' : Option Json.Value}
      {r r' : Registry} (accepted : Session.configure alloc options = .ok r)
      (accepted' : Session.configure alloc options' = .ok r') (rest : Variant alloc first second) :
      Variant alloc (.handle (.openRegistry name options) :: first)
        (.handle (.openRegistry name options') :: second)
  | purgeLeft {first second} (registry : RegistryName) (rest : Variant alloc first second) :
      Variant alloc (.registry registry .purge :: first) second
  | purgeRight {first second} (registry : RegistryName) (rest : Variant alloc first second) :
      Variant alloc first (.registry registry .purge :: second)
  /-- The destructor of an object purges in the first program only. -/
  | purgerLeft {first second} (slot : Slot) (registry : RegistryName) (name : String)
      (rest : Variant alloc first second) :
      Variant alloc (.handle (.create slot (.purger registry) name) :: first)
        (.handle (.create slot (.keeper registry) name) :: second)
  /-- The destructor of an object purges in the second program only. -/
  | purgerRight {first second} (slot : Slot) (registry : RegistryName) (name : String)
      (rest : Variant alloc first second) :
      Variant alloc (.handle (.create slot (.keeper registry) name) :: first)
        (.handle (.create slot (.purger registry) name) :: second)

namespace Session

variable {ledger : Ledger} {s t : Session} {alloc alloc' : Allocator}

/-- The answers that do not depend on how many entries there are. -/
def shown (s : Session) (alloc : Allocator) (actions : List Action) : List Answer :=
  ((actions.zip (s.run alloc actions).2).filter fun pair => !pair.1.inspects).map Prod.snd

theorem shown_cons (s : Session) (alloc : Allocator) (action : Action) (rest : List Action) :
    s.shown alloc (action :: rest) =
      (if action.inspects then [] else [(s.act alloc action).2]) ++
        (s.act alloc action).1.shown alloc rest := by
  simp only [shown, run, List.zip_cons_cons, List.filter_cons]
  cases action.inspects <;> rfl

/-- Two sessions that are alike and agree with one ledger. -/
structure Coupled (ledger : Ledger) (s t : Session) : Prop where
  alike : s.Alike t
  sound : s.scene.Sound
  sound' : t.scene.Sound
  agrees : ledger.Agrees s.world
  agrees' : ledger.Agrees t.world
  vacated : s.world.Vacated
  vacated' : t.world.Vacated

theorem coupled_start : Coupled {} {} {} :=
  ⟨⟨World.Alike.refl _, rfl⟩, sound_start, sound_start, agrees_start, agrees_start,
    World.vacated_start, World.vacated_start⟩

theorem Coupled.world (coupled : Coupled ledger s t) :
    World.Coupled ledger s.world t.world s.strongHandles s.weakHandles := by
  have sound' := coupled.sound'
  rw [coupled.alike.names] at sound'
  exact ⟨coupled.alike.world, coupled.sound, sound', coupled.agrees, coupled.agrees',
    coupled.vacated, coupled.vacated'⟩

theorem map_query_calls (s : Session) (alloc : Allocator) (action : Action) :
    (s.calls alloc action).map CallRecord.query = (s.query? action).toList := by
  unfold calls
  cases s.query? action <;> rfl

/-- Actions of coupled sessions that make the same call get the same answer from the ledger. -/
theorem calls_eq {action action' : Action} (coupled : Coupled ledger s t)
    (same : s.query? action = t.query? action') :
    s.calls alloc action = t.calls alloc' action' := by
  have first := (run_act (held_of_scene coupled.sound) alloc action).agrees coupled.sound
    coupled.agrees
  have second := (run_act (held_of_scene coupled.sound') alloc' action').agrees coupled.sound'
    coupled.agrees'
  have explained := first.1
  have explained' := second.1
  unfold calls at explained explained' ⊢
  rw [same] at explained ⊢
  cases query : t.query? action' with
  | none => rfl
  | some q =>
    rw [query] at explained explained'
    have told : (s.act alloc action).2.returned? = _ := (explains_cons.mp explained).1
    have told' : (t.act alloc' action').2.returned? = _ := (explains_cons.mp explained').1
    simp only [Option.map_some, told, told']

/-- Coupled sessions stay coupled. -/
theorem Coupled.step {action action' : Action} (coupled : Coupled ledger s t)
    (same : s.query? action = t.query? action')
    (alike : (s.act alloc action).1.Alike (t.act alloc' action').1) :
    Coupled (ledger.after (s.query? action).toList) (s.act alloc action).1
      (t.act alloc' action').1 := by
  have first := run_act (held_of_scene coupled.sound) alloc action
  have second := run_act (held_of_scene coupled.sound') alloc' action'
  have agreed := (first.agrees coupled.sound coupled.agrees).2
  have agreed' := (second.agrees coupled.sound' coupled.agrees').2
  rw [map_query_calls] at agreed agreed'
  rw [← same] at agreed'
  exact ⟨alike, first.sound coupled.sound, second.sound coupled.sound', agreed, agreed',
    first.vacated coupled.sound coupled.vacated, second.vacated coupled.sound' coupled.vacated'⟩

theorem agree_act {action action' : Action} {compare : Bool} (names : s.Alike t)
    (h : Agree compare (s.act? alloc action) (t.act? alloc' action')) :
    (s.act alloc action).1.Alike (t.act alloc' action').1 ∧
      (compare = true → (s.act alloc action).2 = (t.act alloc' action').2) := by
  unfold act
  revert h
  generalize s.act? alloc action = first
  generalize t.act? alloc' action' = second
  intro h
  cases h with
  | none => exact ⟨names, fun _ => rfl⟩
  | some related => exact related

/-- Coupled sessions that take actions with results that agree. -/
theorem Coupled.both {action action' : Action} {first second : List Action}
    (coupled : Coupled ledger s t) (kind : action.inspects = action'.inspects)
    (same : s.query? action = t.query? action')
    (agree : Agree (!action.inspects) (s.act? alloc action) (t.act? alloc' action'))
    (rest : ∀ {ledger : Ledger} {s t : Session}, Coupled ledger s t →
      s.shown alloc first = t.shown alloc' second ∧
        s.history alloc first = t.history alloc' second ∧
        ∃ final, Coupled final (s.run alloc first).1 (t.run alloc' second).1) :
    s.shown alloc (action :: first) = t.shown alloc' (action' :: second) ∧
      s.history alloc (action :: first) = t.history alloc' (action' :: second) ∧
      ∃ final, Coupled final (s.run alloc (action :: first)).1
        (t.run alloc' (action' :: second)).1 := by
  obtain ⟨alike, answers⟩ := agree_act coupled.alike agree
  obtain ⟨shown, history, final⟩ := rest (coupled.step same alike)
  refine ⟨?_, ?_, final⟩
  · rw [shown_cons, shown_cons, ← kind, shown]
    cases inspects : action.inspects with
    | true => rfl
    | false =>
      have equal := answers (by rw [inspects]; rfl)
      rw [if_neg Bool.false_ne_true, if_neg Bool.false_ne_true, equal]
  · rw [Session.history, Session.history, calls_eq coupled same, history]

theorem query?_purge (s : Session) (registry : RegistryName) :
    s.query? (.registry registry .purge) = none := by
  simp only [query?, callQuery?]
  cases s.registryNumber? registry <;> rfl

/-- A purge in one of two coupled sessions. -/
theorem Coupled.purgeLeft (coupled : Coupled ledger s t) (alloc : Allocator)
    (registry : RegistryName) :
    Coupled ledger (s.act alloc (.registry registry .purge)).1 t := by
  have run := run_act (held_of_scene coupled.sound) alloc (.registry registry .purge)
  have agreed := (run.agrees coupled.sound coupled.agrees).2
  rw [map_query_calls, query?_purge] at agreed
  have alike : (s.act alloc (.registry registry .purge)).1.Alike t := by
    simp only [act, act?, ask?]
    cases s.registryNumber? registry with
    | none => exact coupled.alike
    | some n => exact ⟨coupled.alike.world.applyLeft n _, coupled.alike.names⟩
  exact ⟨alike, run.sound coupled.sound, coupled.sound', agreed, coupled.agrees',
    run.vacated coupled.sound coupled.vacated, coupled.vacated'⟩

theorem Coupled.symm (coupled : Coupled ledger s t) : Coupled ledger t s := by
  have names : s = { t with world := s.world } := by rw [coupled.alike.names]
  exact ⟨⟨coupled.alike.world.symm, names⟩, coupled.sound', coupled.sound, coupled.agrees',
    coupled.agrees, coupled.vacated', coupled.vacated⟩

/-- The same action in both of two coupled sessions. -/
theorem Coupled.agree_same (coupled : Coupled ledger s t) (fits : alloc.fits = alloc'.fits)
    (action : Action) :
    s.query? action = t.query? action ∧
      Agree (!action.inspects) (s.act? alloc action) (t.act? alloc' action) := by
  rw [coupled.alike.names]
  exact ⟨query?_alike coupled.alike.world action, agree_act? coupled.world fits action⟩

theorem content?_purger (s : Session) (name : String) (registry : RegistryName) :
    (s.content? name (.purger registry)).map Content.shape =
      (s.content? name (.keeper registry)).map Content.shape := by
  simp only [content?, Option.map_map]
  rfl

/-- Two variants of a program in coupled sessions. -/
theorem coupled_run {first second : List Action} (variant : Variant alloc first second)
    (fits : alloc.fits = alloc'.fits) (coupled : Coupled ledger s t) :
    s.shown alloc first = t.shown alloc' second ∧ s.history alloc first = t.history alloc' second ∧
      ∃ final, Coupled final (s.run alloc first).1 (t.run alloc' second).1 := by
  induction variant generalizing ledger s t with
  | nil => exact ⟨rfl, rfl, ledger, coupled⟩
  | same action rest ih =>
    obtain ⟨same, agree⟩ := coupled.agree_same fits action
    exact coupled.both rfl same agree ih
  | options name accepted accepted' rest ih =>
    refine coupled.both rfl rfl ?_ ih
    rw [coupled.alike.names]
    exact agree_openRegistry coupled.alike.world accepted
      ((configure_congr fits _).symm.trans accepted')
  | purgerLeft slot registry name rest ih =>
    refine coupled.both rfl rfl ?_ ih
    rw [coupled.alike.names]
    exact agree_create coupled.alike.world rfl (content?_purger s name registry)
  | purgerRight slot registry name rest ih =>
    refine coupled.both rfl rfl ?_ ih
    rw [coupled.alike.names]
    exact agree_create coupled.alike.world rfl (content?_purger s name registry).symm
  | purgeLeft registry rest ih =>
    obtain ⟨shown, history, final⟩ := ih (coupled.purgeLeft alloc registry)
    refine ⟨?_, ?_, final⟩
    · rw [shown_cons]
      exact shown
    · rw [Session.history, calls, query?_purge]
      exact history
  | purgeRight registry rest ih =>
    obtain ⟨shown, history, final⟩ := ih (coupled.symm.purgeLeft alloc' registry).symm
    refine ⟨?_, ?_, final⟩
    · rw [shown_cons]
      exact shown
    · rw [Session.history, calls, query?_purge]
      exact history

/-- Reclamation cannot be seen in ids. Two variants of a program, under any two placements of
blocks, get the same answers to all calls that do not show the number of entries, the same notices
of ids and the same destructions; and the ids are those of the ledger, for every program, and for
every run of steps, with purges at any point of a destruction. -/
theorem reclamation_invisible {alloc : Allocator} {first second : List Action}
    (variant : Variant alloc first second) (start : Placement) :
    ({} : Session).shown alloc first = ({} : Session).shown (alloc.placing start) second ∧
    ({} : Session).history alloc first = ({} : Session).history (alloc.placing start) second ∧
    (({} : Session).run alloc first).1.world.notices =
      (({} : Session).run (alloc.placing start) second).1.world.notices ∧
    (({} : Session).run alloc first).1.world.destroyed.map Destruction.name =
      (({} : Session).run (alloc.placing start) second).1.world.destroyed.map Destruction.name ∧
    (∀ n, ((({} : Session).run alloc first).1.world.registry n).minted =
      ((({} : Session).run (alloc.placing start) second).1.world.registry n).minted ∧
      ((({} : Session).run alloc first).1.world.registry n).minted =
        .ofNat ((Ledger.after {}
          ((({} : Session).history alloc first).map CallRecord.query)).minted n)) ∧
    (({} : Session).history alloc first).map CallRecord.answer =
      Ledger.answers {} ((({} : Session).history alloc first).map CallRecord.query) ∧
    ∀ history s, Reachable history s →
      history.map CallRecord.answer = Ledger.answers {} (history.map CallRecord.query) := by
  obtain ⟨shown, history, final, coupled⟩ :=
    coupled_run variant (show alloc.fits = (alloc.placing start).fits from rfl) coupled_start
  obtain ⟨explained, agrees⟩ := (reachable_run alloc first).agrees
  refine ⟨shown, history, ?_, coupled.alike.world.destroyed, fun n => ⟨coupled.world.minted n, ?_⟩,
    explained, fun history s reachable => reachable.agrees.1⟩
  · rw [coupled.agrees.notices, coupled.agrees'.notices]
  · exact agrees.minted n

/-- A program with purges, one of them from a destructor. -/
def purging : List Action :=
  [.handle (.openRegistry "r" (some (.object [("sweep_threshold", .ofNat 1)]))),
    .handle (.create (.named "a") .probe "a"), .registry (.named "r") (.observe (.named "a")),
    .handle (.create (.named "p") (.purger (.named "r")) "p"), .handle (.drop (.named "a")),
    .registry (.named "r") .purge, .handle (.drop (.named "p")),
    .handle (.create (.named "b") .int "b"), .registry (.named "r") (.observe (.named "b")),
    .registry (.named "r") .minted]

/-- The same program without purges, and with the default options. -/
def unpurged : List Action :=
  [.handle (.openRegistry "r" none),
    .handle (.create (.named "a") .probe "a"), .registry (.named "r") (.observe (.named "a")),
    .handle (.create (.named "p") (.keeper (.named "r")) "p"), .handle (.drop (.named "a")),
    .handle (.drop (.named "p")),
    .handle (.create (.named "b") .int "b"), .registry (.named "r") (.observe (.named "b")),
    .registry (.named "r") .minted]

theorem reclamation_invisible_purging :
    Variant .recycling purging unpurged ∧
      ({} : Session).shown .recycling purging = ({} : Session).shown .beyond unpurged ∧
      ({} : Session).shown .beyond unpurged =
        [.done, .done, .id (.nth 0), .done, .done, .done, .done, .id (.nth 1), .count 2] := by
  have accepted : configure .recycling (some (.object [("sweep_threshold", .ofNat 1)])) =
      .ok (.ofOptions { sweepThreshold := 1 }) := by rfl
  have default : configure .recycling none = .ok (.ofOptions {}) := rfl
  have variant : Variant .recycling purging unpurged :=
    .options "r" accepted default <|
    .same _ <| .same _ <| .purgerLeft _ _ _ <| .same _ <| .purgeLeft _ <| .same _ <| .same _ <|
    .same _ <| .same _ .nil
  exact ⟨variant, (reclamation_invisible variant .beyond).1, by decide +kernel⟩

end Session

end WeakIdentity
