import WeakIdentity.Proofs.Ledger.Law
import WeakIdentity.Proofs.Session.History

/-! The law of identity: two ids that a registry returns are the same just when they are of the same
object and no call in between made the registry forget it. -/

namespace WeakIdentity

open Scene Ledger

namespace Session

/-- The ledger of all calls that some actions make. -/
def ledger (alloc : Allocator) (actions : List Action) : Ledger :=
  Ledger.after {} ((({} : Session).history alloc actions).map CallRecord.query)

theorem agrees_ledger (alloc : Allocator) (actions : List Action) :
    (ledger alloc actions).Agrees (({} : Session).run alloc actions).1.world :=
  (reachable_run alloc actions).agrees.2

/-- The ids that a registry has assigned are the first ones, in order. -/
theorem assigned_eq (alloc : Allocator) (actions : List Action) (n : Nat) :
    (({} : Session).run alloc actions).1.world.assigned n =
      (List.range ((ledger alloc actions).minted n)).map ObjectId.nth :=
  (reachable_run alloc actions).assigned_eq n

theorem length_assigned (alloc : Allocator) (actions : List Action) (n : Nat) :
    ((({} : Session).run alloc actions).1.world.assigned n).length =
      (ledger alloc actions).minted n :=
  (reachable_run alloc actions).length_assigned n

theorem ledger_append (alloc : Allocator) (first second : List Action) :
    ledger alloc (first ++ second) =
      (ledger alloc first).after
        (((({} : Session).run alloc first).1.history alloc second).map CallRecord.query) := by
  rw [ledger, history_append, List.map_append, after_append]
  rfl

theorem minted_le_append (alloc : Allocator) (first second : List Action) (n : Nat) :
    (ledger alloc first).minted n ≤ (ledger alloc (first ++ second)).minted n := by
  rw [ledger_append]
  exact minted_le_after _ _ n

/-- An action assigns no id, or the one that the counter of the registry shows before it, and
answers with it. -/
theorem assigned_act (alloc : Allocator) (actions : List Action) (action : Action) (n : Nat)
    {s : Session} (h : (({} : Session).run alloc actions).1 = s) :
    (s.act alloc action).1.world.assigned n = s.world.assigned n ∨
      ∃ o, s.calls alloc action = [⟨⟨n, .observe, o⟩, some ⟨(s.world.registry n).minted⟩⟩] ∧
        (s.act alloc action).1.world.assigned n =
          s.world.assigned n ++ [⟨(s.world.registry n).minted⟩] := by
  have reachable := reachable_run alloc actions
  rw [h] at reachable
  refine reachable.assigned_run (run_act (held_of_scene reachable.sound) alloc action) ?_ n
  cases query : s.query? action <;> simp [calls, query]

/-- The law of identity. In a session in which a registry assigns fewer than 2^64 ids, two ids that
it returns are the same just when they are those of one object that is not forgotten in between. The
ids are assigned in order, each of them as the counter shows it just before. The same holds in every
run of steps, whether or not it comes from a session. -/
theorem identity_law (alloc : Allocator) (actions : List Action) (n : Nat)
    (few : ((({} : Session).run alloc actions).1.world.assigned n).length < 2 ^ 64) :
    (∀ before first between second after a b x y,
      ({} : Session).history alloc actions = before ++ first :: (between ++ second :: after) →
      first.Returns n a x → second.Returns n b y →
      (x = y ↔ a = b ∧ ∀ record ∈ between, ¬record.Forgets n a)) ∧
    (∀ before action after, actions = before ++ action :: after →
      ∀ s, (({} : Session).run alloc before).1 = s →
      (s.world.registry n).minted.toNat = (s.world.assigned n).length ∧
      ((s.act alloc action).1.world.assigned n = s.world.assigned n ∨
        ∃ o, s.calls alloc action = [⟨⟨n, .observe, o⟩, some ⟨(s.world.registry n).minted⟩⟩] ∧
          (s.act alloc action).1.world.assigned n =
            s.world.assigned n ++ [⟨(s.world.registry n).minted⟩])) ∧
    (({} : Session).run alloc actions).1.world.assigned n =
      (List.range ((({} : Session).run alloc actions).1.world.assigned n).length).map
        ObjectId.nth ∧
    (∀ (history : List CallRecord) (s : Scene), Reachable history s →
      (s.world.assigned n).length < 2 ^ 64 →
      (∀ before first between second after a b x y,
        history = before ++ first :: (between ++ second :: after) →
        first.Returns n a x → second.Returns n b y →
        (x = y ↔ a = b ∧ ∀ record ∈ between, ¬record.Forgets n a)) ∧
      (s.world.registry n).minted.toNat = (s.world.assigned n).length ∧
      (∀ calls t, Step s calls t → t.world.assigned n = s.world.assigned n ∨
        ∃ o, calls = [⟨⟨n, .observe, o⟩, some ⟨(s.world.registry n).minted⟩⟩] ∧
          t.world.assigned n = s.world.assigned n ++ [⟨(s.world.registry n).minted⟩]) ∧
      s.world.assigned n = (List.range (s.world.assigned n).length).map ObjectId.nth) := by
  refine ⟨?_, ?_, ?_, ?_⟩
  · intro before first between second after a b x y split returned returned'
    have reachable := reachable_run alloc actions
    rw [split] at reachable
    exact reachable.returns_iff few returned returned'
  · rintro before action after rfl s reached
    refine ⟨?_, assigned_act alloc before action n reached⟩
    have reachable := reachable_run alloc before
    have bound := minted_le_append alloc before (action :: after) n
    rw [← length_assigned, ← length_assigned] at bound
    rw [reached] at reachable bound
    exact reachable.minted_toNat (Nat.lt_of_le_of_lt bound few)
  · rw [length_assigned]
    exact assigned_eq alloc actions n
  · intro history s reachable fewer
    refine ⟨?_, reachable.minted_toNat fewer,
      fun calls t step => reachable.assigned_step step n, ?_⟩
    · rintro before first between second after a b x y rfl returned returned'
      exact reachable.returns_iff fewer returned returned'
    · rw [reachable.length_assigned]
      exact reachable.assigned_eq n

/-- An object at the address of one that had an id and was swept, which is forgotten once. -/
def reuse : List Action :=
  [.handle (.openRegistry "r" (some (.object [("sweep_threshold", .ofNat 1)]))),
    .handle (.create (.named "a") .int "a"), .registry (.named "r") (.observe (.named "a")),
    .handle (.drop (.named "a")),
    .handle (.create (.named "b") .int "b"), .registry (.named "r") (.observe (.named "b")),
    .handle (.create (.named "c") .int "c"), .registry (.named "r") (.observe (.named "c")),
    .registry (.named "r") (.forget (.named "c")), .registry (.named "r") (.observe (.named "c"))]

theorem identity_law_reuse :
    ((({} : Session).run .recycling reuse).1.world.assigned 1).length < 2 ^ 64 ∧
      (({} : Session).run .recycling reuse).1.world.heap.address ⟨1⟩ =
        (({} : Session).run .recycling reuse).1.world.heap.address ⟨3⟩ ∧
      (ObjectId.nth 0 = ObjectId.nth 2 ↔ (⟨1⟩ : Object) = ⟨3⟩ ∧
        ∀ record ∈ [(⟨⟨1, .observe, ⟨2⟩⟩, some (.nth 1)⟩ : CallRecord)], ¬record.Forgets 1 ⟨1⟩) ∧
      (ObjectId.nth 2 = ObjectId.nth 3 ↔ (⟨3⟩ : Object) = ⟨3⟩ ∧
        ∀ record ∈ [(⟨⟨1, .forget, ⟨3⟩⟩, some (.nth 2)⟩ : CallRecord)], ¬record.Forgets 1 ⟨3⟩) := by
  have few : ((({} : Session).run .recycling reuse).1.world.assigned 1).length < 2 ^ 64 := by
    decide +kernel
  have law := (identity_law .recycling reuse 1 few).1
  refine ⟨few, by decide +kernel, ?_, ?_⟩
  · exact law [] ⟨⟨1, .observe, ⟨1⟩⟩, some (.nth 0)⟩ _ ⟨⟨1, .observe, ⟨3⟩⟩, some (.nth 2)⟩
      [⟨⟨1, .forget, ⟨3⟩⟩, some (.nth 2)⟩, ⟨⟨1, .observe, ⟨3⟩⟩, some (.nth 3)⟩] _ _ _ _
      (by decide +kernel) ⟨rfl, rfl, by decide, rfl⟩ ⟨rfl, rfl, by decide, rfl⟩
  · exact law [⟨⟨1, .observe, ⟨1⟩⟩, some (.nth 0)⟩, ⟨⟨1, .observe, ⟨2⟩⟩, some (.nth 1)⟩]
      ⟨⟨1, .observe, ⟨3⟩⟩, some (.nth 2)⟩ _ ⟨⟨1, .observe, ⟨3⟩⟩, some (.nth 3)⟩ [] _ _ _ _
      (by decide +kernel) ⟨rfl, rfl, by decide, rfl⟩ ⟨rfl, rfl, by decide, rfl⟩

end Session

end WeakIdentity
