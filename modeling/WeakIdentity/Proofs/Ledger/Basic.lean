import WeakIdentity.Proofs.Scene.Basic

/-! The ledger: for every registry a naive table from objects to ids, which never sweeps and loses
an entry only in a call to forget it. Where no counter overflows, it assigns different ids to
different objects, and no id twice. -/

namespace WeakIdentity

/-- The id of a number. -/
def ObjectId.nth (k : Nat) : ObjectId := ⟨.ofNat k⟩

theorem ObjectId.nth_inj {j k : Nat} (hj : j < UInt64.size) (hk : k < UInt64.size)
    (h : nth j = nth k) : j = k := by
  have words : UInt64.ofNat j = UInt64.ofNat k := congrArg ObjectId.value h
  have numbers := congrArg UInt64.toNat words
  rwa [UInt64.toNat_ofNat_of_lt' hj, UInt64.toNat_ofNat_of_lt' hk] at numbers

/-- What the events of a registry say about ids. -/
inductive Notice where
  | assign (registry : Nat) (id : ObjectId)
  | forget (registry : Nat) (id : ObjectId)
  deriving DecidableEq, Repr

/-- An event without the size of the table; a sweep says nothing about ids. -/
def Notice.ofEvent? : Nat × Event → Option Notice
  | (n, .assign id _) => some (.assign n id)
  | (n, .forget id) => some (.forget n id)
  | (_, .sweep ..) => none

/-- The id that a registry was reported to assign. -/
def Notice.assigned? (n : Nat) : Notice → Option ObjectId
  | .assign k id => if k = n then some id else none
  | .forget _ _ => none

/-- What the events so far say about ids. -/
def World.notices (w : World) : List Notice := w.events.filterMap Notice.ofEvent?

/-- The ids that a registry has assigned, in order. -/
def World.assigned (w : World) (n : Nat) : List ObjectId := w.notices.filterMap (Notice.assigned? n)

namespace CallRecord

/-- The call returns the id of an object, and does not remove it. -/
def Returns (d : CallRecord) (n : Nat) (o : Object) (id : ObjectId) : Prop :=
  d.query.registry = n ∧ d.query.object = o ∧ d.query.call ≠ .forget ∧ d.answer = some id

/-- The call makes a registry forget an object that has an id. -/
def Forgets (d : CallRecord) (n : Nat) (o : Object) : Prop :=
  d.query = ⟨n, .forget, o⟩ ∧ d.answer ≠ none

end CallRecord

/-- A table by object for every registry, the number of ids that it has given, and its notices. -/
structure Ledger where
  id? : Nat → Object → Option ObjectId := fun _ _ => none
  minted : Nat → Nat := fun _ => 0
  notices : List Notice := []

namespace Ledger

/-- Gives an object the next id. -/
def assign (ledger : Ledger) (n : Nat) (o : Object) : Ledger where
  id? k p := if k = n ∧ p = o then some (.nth (ledger.minted n)) else ledger.id? k p
  minted k := if k = n then ledger.minted n + 1 else ledger.minted k
  notices := ledger.notices ++ [.assign n (.nth (ledger.minted n))]

/-- Forgets the id of an object. -/
def forget (ledger : Ledger) (n : Nat) (o : Object) (id : ObjectId) : Ledger where
  id? k p := if k = n ∧ p = o then none else ledger.id? k p
  minted := ledger.minted
  notices := ledger.notices ++ [.forget n id]

/-- Answers a call. -/
def ask (ledger : Ledger) (query : Query) : Ledger × Option ObjectId :=
  match query.call, ledger.id? query.registry query.object with
  | .lookup, answer => (ledger, answer)
  | .observe, some id => (ledger, some id)
  | .observe, none =>
    (ledger.assign query.registry query.object, some (.nth (ledger.minted query.registry)))
  | .forget, none => (ledger, none)
  | .forget, some id => (ledger.forget query.registry query.object id, some id)

/-- The ledger after some calls. -/
def after (ledger : Ledger) : List Query → Ledger
  | [] => ledger
  | query :: rest => (ledger.ask query).1.after rest

/-- The answers to some calls. -/
def answers (ledger : Ledger) : List Query → List (Option ObjectId)
  | [] => []
  | query :: rest => (ledger.ask query).2 :: (ledger.ask query).1.answers rest

/-- The answers of the calls are those of the ledger. -/
def Explains (ledger : Ledger) (calls : List CallRecord) : Prop :=
  calls.map CallRecord.answer = ledger.answers (calls.map CallRecord.query)

theorem after_append (ledger : Ledger) (first second : List Query) :
    ledger.after (first ++ second) = (ledger.after first).after second := by
  induction first generalizing ledger with
  | nil => rfl
  | cons query rest ih => exact ih (ledger.ask query).1

theorem explains_cons {ledger : Ledger} {d : CallRecord} {calls : List CallRecord} :
    ledger.Explains (d :: calls) ↔
      d.answer = (ledger.ask d.query).2 ∧ (ledger.ask d.query).1.Explains calls :=
  List.cons_eq_cons

theorem explains_append {ledger : Ledger} {first second : List CallRecord} :
    ledger.Explains (first ++ second) ↔
      ledger.Explains first ∧ (ledger.after (first.map CallRecord.query)).Explains second := by
  induction first generalizing ledger with
  | nil => exact ⟨fun h => ⟨rfl, h⟩, fun h => h.2⟩
  | cons d rest ih =>
    rw [List.cons_append, explains_cons, explains_cons, ih, and_assoc]
    rfl

/-- What a call can do: answer from the table, give the next id, or forget one. -/
theorem ask_cases (ledger : Ledger) (query : Query) :
    (ledger.ask query = (ledger, ledger.id? query.registry query.object) ∧
      (query.call = .observe → ledger.id? query.registry query.object ≠ none) ∧
      (query.call = .forget → ledger.id? query.registry query.object = none)) ∨
    (query.call = .observe ∧ ledger.id? query.registry query.object = none ∧
      ledger.ask query = (ledger.assign query.registry query.object,
        some (.nth (ledger.minted query.registry)))) ∨
    (query.call = .forget ∧ ∃ id, ledger.id? query.registry query.object = some id ∧
      ledger.ask query = (ledger.forget query.registry query.object id, some id)) := by
  obtain ⟨n, call, o⟩ := query
  cases call <;> cases h : ledger.id? n o <;> simp [ask, h]

end Ledger

end WeakIdentity
