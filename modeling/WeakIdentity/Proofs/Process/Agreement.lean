import WeakIdentity.Proofs.Process.Pool

/-! Agreement under any interleaving. As long as no thread makes a registry forget, all threads see
the same id for an object, each object costs one id, and threads that only observe a pool of objects
see the same ids in whatever order they run. -/

namespace WeakIdentity

open Scene Ledger

/-- Whether a command makes a registry forget an object. -/
def Command.forgets : Command → Bool
  | .act (.registry _ (.forget _)) => true
  | _ => false

/-! ### Runs without forgetting -/

theorem Session.call_ne_forget {s : Session} {action : Action} {query : Query}
    (asks : s.query? action = some query) (keeps : (Command.act action).forgets = false) :
    query.call ≠ .forget := by
  have labels : ∀ {name : String} {slot : Slot}, s.labelQuery? name slot = some query →
      query.call ≠ .forget := by
    intro name slot asks
    obtain ⟨-, -, -, -, -, -, rfl⟩ := Session.labelQuery?_eq_some asks
    simp
  cases action with
  | handle action => cases asks
  | registry name call =>
    obtain ⟨n, -, asks⟩ := Option.bind_eq_some_iff.mp asks
    cases call with
    | forget slot => cases keeps
    | observe slot | idOf slot =>
      obtain ⟨handle, -, rfl⟩ := Option.map_eq_some_iff.mp asks
      simp
    | tryObserve weak =>
      obtain ⟨o, -, done⟩ := Option.bind_eq_some_iff.mp asks
      split at done
      · obtain rfl := Option.some.inj done
        simp
      · cases done
    | _ => cases asks
  | label action =>
    cases action with
    | field labeler slot name keep => exact labels asks
    | element labeler slot index keep => exact labels asks
    | _ => cases asks

variable {alloc : Allocator}

theorem Thread.Step.keeps {s s' : Session} {t t' : Thread} {calls : List CallRecord}
    (step : Thread.Step alloc s t calls s' t')
    (keeps : ∀ command ∈ t.commands, command.forgets = false) :
    (∀ query ∈ calls.map CallRecord.query, query.call ≠ .forget) ∧
      ∀ command ∈ t'.commands, command.forgets = false := by
  cases step with
  | act action =>
    refine ⟨fun query mem => ?_, fun command mem => keeps command (List.mem_cons_of_mem _ mem)⟩
    obtain ⟨record, there, rfl⟩ := List.mem_map.mp mem
    obtain ⟨query, asks, rfl⟩ := Option.map_eq_some_iff.mp (Option.mem_toList.mp there)
    exact Session.call_ne_forget asks (keeps _ List.mem_cons_self)
  | skip | upgrade | drop | absent =>
    exact ⟨List.forall_mem_nil _, fun command mem => keeps command (List.mem_cons_of_mem _ mem)⟩
  | observe =>
    refine ⟨fun query mem => ?_, keeps⟩
    obtain rfl := List.mem_singleton.mp mem
    simp
  | perform | finish => exact ⟨List.forall_mem_nil _, keeps⟩

namespace Process

variable {c d : Process} {history calls : List CallRecord}

/-- No thread is going to make a registry forget. -/
def Keeps (c : Process) : Prop := ∀ t ∈ c.threads, ∀ command ∈ t.commands, command.forgets = false

theorem Step.keeps (step : Step alloc c calls d) (keeps : c.Keeps) :
    (∀ query ∈ calls.map CallRecord.query, query.call ≠ .forget) ∧ d.Keeps := by
  cases step with
  | @thread s s' t t' calls before after step =>
    obtain ⟨queries, commands⟩ := step.keeps (keeps t (by simp))
    exact ⟨queries, forall_threads keeps commands⟩

theorem Run.keeps (run : Run alloc c history d) (keeps : c.Keeps) :
    (∀ query ∈ history.map CallRecord.query, query.call ≠ .forget) ∧ d.Keeps := by
  induction run with
  | refl => exact ⟨List.forall_mem_nil _, keeps⟩
  | step before last ih =>
    have next := last.keeps ih.2
    rw [List.map_append]
    exact ⟨List.forall_mem_append.mpr ⟨ih.1, next.1⟩, next.2⟩

theorem keeps_start {s : Session} {programs : List (List Command)}
    (keeps : ∀ commands ∈ programs, ∀ command ∈ commands, command.forgets = false) :
    (start s programs).Keeps := by
  intro t mem
  obtain ⟨commands, there, rfl⟩ := List.mem_map.mp mem
  exact keeps commands there

end Process

/-! ### What is seen -/

/-- The id is among those that a registry returns. -/
def Seen (n : Nat) (history : List CallRecord) (x : ObjectId) : Prop :=
  ∃ record ∈ history, ∃ o, record.Returns n o x

theorem seen_of_watching {n : Nat} {history : List CallRecord}
    (watching : Process.Watching n history) (x : ObjectId) :
    Seen n history x ↔ ∃ o, (⟨⟨n, .observe, o⟩, some x⟩ : CallRecord) ∈ history := by
  constructor
  · rintro ⟨⟨query, answer⟩, mem, o, -, -, -, told⟩
    obtain ⟨p, rfl⟩ := watching query (List.mem_map_of_mem mem)
    obtain rfl : answer = some x := told
    exact ⟨p, mem⟩
  · rintro ⟨o, mem⟩
    exact ⟨_, mem, o, rfl, rfl, by simp, rfl⟩

namespace Process

variable {c : Process} {s : Session} {n : Nat} {history : List CallRecord} {ledger : Ledger}
  {programs : List (List Command)}

/-- The counter goes up once for each object that has no entry when it is first observed. -/
theorem Run.minted_eq (run : Run alloc (start s programs) history c) (sound : s.scene.Sound)
    (agrees : ledger.Agrees s.world)
    (keeps : ∀ query ∈ history.map CallRecord.query, query.call ≠ .forget) (n : Nat) :
    (c.session.world.registry n).minted = (s.world.registry n).minted +
      .ofNat ((observed n (history.map CallRecord.query)).filter fun o =>
        o ∉ (s.world.registry n).tokens).card := by
  have scenes := run.scenes_of_start sound
  have fresh : ((observed n (history.map CallRecord.query)).filter fun o =>
      o ∉ (s.world.registry n).tokens) = ledger.fresh n (history.map CallRecord.query) := by
    refine Finset.filter_congr fun o mem => ?_
    -- The observed object was live at the start or is new, and has an id just if it has an entry.
    obtain ⟨record, there, asked⟩ := List.mem_map.mp (mem_observed.mp mem)
    obtain ⟨usable, live⟩ := scenes.asked sound there
    rw [asked] at usable live
    exact (agrees.unknown_iff sound usable live).symm
  have counter : (c.session.world.registry n).minted = _ :=
    (scenes.agrees sound agrees).2.minted n
  rw [counter, Ledger.minted_after keeps, UInt64.ofNat_add, agrees.minted, fresh]

/-- The ids that a pool shows in a run to the end: those that it had, and the next ones for the
others. -/
theorem Run.seen_pool (run : Run alloc (start s programs) history c) (sound : s.scene.Sound)
    (agrees : ledger.Agrees s.world)
    (watches : ∀ commands ∈ programs, ∀ command ∈ commands, s.Watches n command)
    (finished : c.Finished) (x : ObjectId) :
    Seen n history x ↔
      (∃ o ∈ s.pool n programs, s.world.idOf n o = some x) ∨
        ∃ i < ((s.pool n programs).filter fun o : Object => s.world.idOf n o = none).card,
          x = ⟨(s.world.registry n).minted + .ofNat i⟩ := by
  obtain ⟨watching, pool⟩ := run.observed_pool sound watches finished
  have ids : ∀ o ∈ s.pool n programs, s.world.idOf n o = ledger.id? n o := by
    intro o mem
    obtain ⟨usable, live⟩ := Session.held_of_mem_pool (Session.held_of_scene sound) watches mem
    exact agrees.ids n o usable live
  have fresh : ((s.pool n programs).filter fun o : Object => s.world.idOf n o = none) =
      ledger.fresh n (history.map CallRecord.query) := by
    rw [Ledger.fresh, pool]
    exact Finset.filter_congr fun o mem => by rw [ids o mem]
  have keeps : ∀ query ∈ history.map CallRecord.query, query.call ≠ .forget := by
    intro query mem
    obtain ⟨o, rfl⟩ := watching query mem
    simp
  have explained := ((run.scenes_of_start sound).agrees sound agrees).1
  have next : ∀ i, (⟨(s.world.registry n).minted + .ofNat i⟩ : ObjectId) =
      .nth (ledger.minted n + i) := by
    intro i
    rw [agrees.minted, ObjectId.nth, UInt64.ofNat_add]
  simp only [seen_of_watching watching, Ledger.seen_iff explained keeps, Ledger.Shows, pool, fresh,
    next]
  refine or_congr_left (exists_congr fun o => and_congr_right fun mem => ?_)
  rw [ids o mem]

/-- Agreement under any interleaving. In whatever order the steps of threads that forget nothing are
taken, a registry returns one id for an object, and its counter goes up by the number of objects
that had no entry and are observed. Threads that only observe a pool get the ids that its objects
had and the next ones for the others, as they do one after another. -/
theorem interleavings_agree (alloc : Allocator) (before : List Action)
    (programs : List (List Command)) (n : Nat)
    (keeps : ∀ commands ∈ programs, ∀ command ∈ commands, command.forgets = false)
    {s : Session} (reached : (({} : Session).run alloc before).1 = s)
    {history : List CallRecord} {c : Process} (run : Run alloc (start s programs) history c) :
    (∀ first ∈ history, ∀ second ∈ history, ∀ o x y,
      first.Returns n o x → second.Returns n o y → x = y) ∧
    (c.session.world.registry n).minted = (s.world.registry n).minted +
      .ofNat ((observed n (history.map CallRecord.query)).filter fun o =>
        o ∉ (s.world.registry n).tokens).card ∧
    ((∀ commands ∈ programs, ∀ command ∈ commands, s.Watches n command) → c.Finished → ∀ x,
      (Seen n history x ↔
        (∃ o ∈ s.pool n programs, s.world.idOf n o = some x) ∨
          ∃ i < ((s.pool n programs).filter fun o : Object => s.world.idOf n o = none).card,
            x = ⟨(s.world.registry n).minted + .ofNat i⟩) ∧
      (Seen n history x ↔
        Seen n (s.history alloc (programs.flatten.map Command.alone)) x)) := by
  have reachable := Session.reachable_run alloc before
  rw [reached] at reachable
  have sound := reachable.sound
  have agrees := reachable.agrees.2
  have explained := ((run.scenes_of_start sound).agrees sound agrees).1
  have queries := (run.keeps (keeps_start keeps)).1
  refine ⟨?_, run.minted_eq sound agrees queries n, ?_⟩
  · intro first mem second mem' o x y returned returned'
    -- Both are the id that the ledger has in the end.
    have known := Ledger.id?_of_returns explained queries mem returned
    have known' := Ledger.id?_of_returns explained queries mem' returned'
    exact Option.some.inj (known.symm.trans known')
  · intro watches finished x
    have seen := run.seen_pool sound agrees watches finished x
    obtain ⟨other, finished', sequence⟩ := run_sequence alloc sound programs
    exact ⟨seen, seen.trans (sequence.seen_pool sound agrees watches finished' x).symm⟩

/-! ### Two threads -/

/-- An object that has an id, and one that has none and a weak handle besides. -/
def share : List Action :=
  [.handle (.create (.named "a") .int "a"), .registry .processWide (.observe (.named "a")),
    .handle (.create (.named "b") .int "b"), .handle (.downgrade (.named "b") "w")]

/-- One thread goes through the weak handle, while the other observes the object and drops it. -/
def race : List (List Command) :=
  [[.tryObserve .processWide "w"],
    [.act (.registry .processWide (.observe (.named "b"))), .drop (.named "b")]]

/-- Both threads observe what they share. -/
def watch : List (List Command) :=
  [[.tryObserve .processWide "w", .act (.registry .processWide (.observe (.named "a")))],
    [.act (.registry .processWide (.observe (.named "b")))]]

section Shared

variable {s : Session} (reached : (({} : Session).run .recycling share).1 = s)
include reached

theorem run_upgrade (rest : List Command) (others : List Thread) :
    Run .recycling ⟨s, ⟨.idle, .tryObserve .processWide "w" :: rest⟩ :: others⟩ []
      ⟨{ s with world := s.world.retain ⟨1⟩ }, ⟨.upgraded 0 ⟨1⟩, rest⟩ :: others⟩ := by
  have found : (s.weaks.get? "w").join = some ⟨1⟩ := by rw [← reached]; decide +kernel
  have live : s.world.heap.isLive ⟨1⟩ = true := by rw [← reached]; decide +kernel
  have upgraded : s.world.upgrade? (s.weaks.get? "w").join = some (s.world.retain ⟨1⟩, ⟨1⟩) := by
    rw [found, World.upgrade?, if_pos live]
  exact (Step.thread [] others (.upgrade rfl upgraded)).run

/-- The other handle is dropped between the upgrade and the call. -/
theorem run_race :
    ∃ history c, Run .recycling (start s race) history c ∧
      history = [⟨⟨0, .observe, ⟨1⟩⟩, some (.nth 1)⟩, ⟨⟨0, .observe, ⟨1⟩⟩, some (.nth 1)⟩] := by
  have upgraded : Run .recycling (start s race) [] _ := run_upgrade reached _ _
  subst reached
  have observed := upgraded.step (Step.thread [_] [] (.act _))
  have dropped := observed.step
    (Step.thread [_] [] (.drop { object := ⟨1⟩ } (by decide +kernel)))
  have settled := dropped.trans (run_settle .recycling _ _ _ [_] [])
  have asked := settled.step (Step.thread [] [_] (.observe (Or.inl rfl)))
  exact ⟨_, _, asked, by decide +kernel⟩

theorem run_watch : ∃ history c, Run .recycling (start s watch) history c ∧ c.Finished := by
  have upgraded : Run .recycling (start s watch) [] _ := run_upgrade reached _ _
  have other := upgraded.step (Step.thread [_] [] (.act _))
  have asked := other.step (Step.thread [] [_] (.observe (Or.inl rfl)))
  have settled := asked.trans (run_settle .recycling _ _ _ [] [_])
  have last := settled.step (Step.thread [] [_] (.act _))
  refine ⟨_, _, last, fun t mem => ?_⟩
  simpa using mem

theorem watches_watch : ∀ commands ∈ watch, ∀ command ∈ commands, s.Watches 0 command := by
  subst reached
  simp only [watch, List.forall_mem_cons]
  exact ⟨⟨⟨⟨1⟩, by decide +kernel, by decide +kernel⟩, ⟨⟨0⟩, by decide +kernel, by decide +kernel⟩,
    List.forall_mem_nil _⟩, ⟨⟨⟨1⟩, by decide +kernel, by decide +kernel⟩, List.forall_mem_nil _⟩,
    List.forall_mem_nil _⟩

end Shared

theorem interleavings_agree_race :
    ∃ s : Session, (({} : Session).run .recycling share).1 = s ∧
      (∃ history c, Run .recycling (start s race) history c ∧
        history = [⟨⟨0, .observe, ⟨1⟩⟩, some (.nth 1)⟩, ⟨⟨0, .observe, ⟨1⟩⟩, some (.nth 1)⟩] ∧
        (∀ first ∈ history, ∀ second ∈ history, ∀ o x y,
          first.Returns 0 o x → second.Returns 0 o y → x = y) ∧
        (c.session.world.registry 0).minted = 1 + 1) ∧
      ∃ history c, Run .recycling (start s watch) history c ∧ c.Finished ∧
        ∀ x, Seen 0 history x ↔
          (∃ o ∈ ({⟨0⟩, ⟨1⟩} : Finset Object), s.world.idOf 0 o = some x) ∨
            ∃ i < 1, x = ⟨1 + .ofNat i⟩ := by
  obtain ⟨s, reached⟩ : ∃ s, (({} : Session).run .recycling share).1 = s := ⟨_, rfl⟩
  have minted : (s.world.registry 0).minted = 1 := by rw [← reached]; decide +kernel
  refine ⟨s, reached, ?_, ?_⟩
  · obtain ⟨history, c, run, told⟩ := run_race reached
    obtain ⟨same, counter, -⟩ := interleavings_agree .recycling share race 0
      (by decide +kernel) reached run
    have fresh : ((observed 0 (history.map CallRecord.query)).filter fun o =>
        o ∉ (s.world.registry 0).tokens).card = 1 := by
      rw [told, ← reached]
      decide +kernel
    rw [minted, fresh] at counter
    exact ⟨history, c, run, told, same, counter⟩
  · obtain ⟨history, c, run, finished⟩ := run_watch reached
    have pool : s.pool 0 watch = {⟨0⟩, ⟨1⟩} := by rw [← reached]; decide +kernel
    have others : (({⟨0⟩, ⟨1⟩} : Finset Object).filter fun o : Object =>
        s.world.idOf 0 o = none).card = 1 := by rw [← reached]; decide +kernel
    have seen := (interleavings_agree .recycling share watch 0 (by decide +kernel) reached
      run).2.2 (watches_watch reached) finished
    refine ⟨history, c, run, finished, fun x => ?_⟩
    have ids := (seen x).1
    rwa [pool, others, minted] at ids

end Process

end WeakIdentity
