import WeakIdentity.Session.Basic

/-! Requests: one action, or many of a kind. A request stands for a list of actions and sums up
their answers. Threads that race for a registry are run one after another, which gives the ids that
any other order gives. -/

namespace WeakIdentity

/-- The numbers `first`, `first + stride`, … below `stop`. -/
structure Span where
  first : Nat
  stop : Nat
  stride : Nat := 1
  deriving DecidableEq, Repr

def Span.toList (span : Span) : List Nat :=
  List.range' span.first ((span.stop - span.first + span.stride - 1) / span.stride) span.stride

/-- The names `stem` with the numbers of a span. -/
def Span.names (span : Span) (stem : String) : List String :=
  span.toList.map fun i => stem ++ Nat.repr i

/-- The requests to a session. -/
inductive Request where
  | act (action : Action)
  | createMany (stem : String) (span : Span) (kind : Kind)
  | dropMany (stem : String) (span : Span)
  | observeMany (registry : RegistryName) (stem : String) (span : Span)
  | idOfMany (registry : RegistryName) (stem : String) (span : Span)
  /-- Makes, observes and drops `count` objects, one after another. -/
  | churn (registry : RegistryName) (kind : Kind) (count : Nat)
  /-- Some threads observe one object again and again. -/
  | race (registry : RegistryName) (slot : Slot) (threads rounds : Nat)
  /-- Some threads observe all objects of a span. -/
  | raceMany (registry : RegistryName) (stem : String) (span : Span) (threads : Nat)

def Answer.id? : Answer → Option ObjectId
  | .id found => some found
  | .lookup found => found
  | _ => none

def Answer.count? : Answer → Option Nat
  | .count n => some n
  | _ => none

/-- Whether the action referred to an unknown name. -/
def Answer.isUnknown : Answer → Bool
  | .unknown => true
  | _ => false

namespace Request

/-- The actions that create, observe and drop one object. -/
def churnActions (registry : RegistryName) (kind : Kind) (i : Nat) : List Action :=
  [.handle (.create .aside kind ("churn" ++ Nat.repr i)), .registry registry (.observe .aside),
    .registry registry .size, .handle (.drop .aside)]

def actions : Request → List Action
  | .act action => [action]
  | .createMany stem span kind =>
    (span.names stem).map fun name => .handle (.create (.named name) kind name)
  | .dropMany stem span => (span.names stem).map fun name => .handle (.drop (.named name))
  | .observeMany registry stem span =>
    (span.names stem).map fun name => .registry registry (.observe (.named name))
  | .idOfMany registry stem span =>
    (span.names stem).map fun name => .registry registry (.idOf (.named name))
  | .churn registry kind count => (List.range count).flatMap (churnActions registry kind)
  | .race registry slot threads rounds =>
    List.replicate (threads * rounds) (.registry registry (.observe slot))
  | .raceMany registry stem span threads =>
    (List.replicate threads ((span.names stem).map fun name =>
      Action.registry registry (.observe (.named name)))).flatten

/-- Whether each id equals the one seen `period` places before it. -/
def agree (period : Nat) (ids : List ObjectId) : Bool :=
  ids.drop period == ids.take (ids.length - period)

/-- The answer to a request, from the answers to its actions. -/
def sumUp (request : Request) (answers : List Answer) : Answer :=
  match request with
  | .act _ => answers.head?.getD .unknown
  | .createMany .. | .dropMany .. => .done
  | .observeMany .. | .idOfMany .. => .ids (answers.map Answer.id?)
  | .churn .. =>
    let ids := answers.filterMap Answer.id?
    .churned ids.head? ids.getLast? ((answers.filterMap Answer.count?).foldl max 0)
  | .race .. => .seen (ObjectId.distinct (answers.filterMap Answer.id?))
  | .raceMany _ _ span _ =>
    let ids := answers.filterMap Answer.id?
    .agreed (ObjectId.distinct ids) (agree span.toList.length ids)

/-- Whether the events of a request are seen: those of racing threads are not. -/
def isTraced : Request → Bool
  | .race .. | .raceMany .. => false
  | _ => true

end Request

/-- What a request brings: its answer, what was destroyed and what registries reported. -/
structure Outcome where
  answer : Answer
  destroyed : List Destruction := []
  events : List Event := []

namespace Session

/-- The events of a world that are seen, which those of the registry of the whole process are
not. -/
def seenEvents (w : World) : List Event :=
  (w.events.filter fun event => event.1 ≠ World.processWide).map Prod.snd

/-- Serves a request. A request that refers to an unknown name changes nothing. -/
def serve (s : Session) (alloc : Allocator) (request : Request) : Session × Outcome :=
  let (final, answers) := s.run alloc request.actions
  if answers.any Answer.isUnknown then (s, { answer := .unknown })
  else
    ({ final with world := final.world.quiet },
      { answer := request.sumUp answers
        destroyed := final.world.destroyed
        events := if request.isTraced then seenEvents final.world else [] })

def serveAll (s : Session) (alloc : Allocator) : List Request → Session × List Outcome
  | [] => (s, [])
  | request :: rest =>
    let (next, outcome) := s.serve alloc request
    let (final, outcomes) := next.serveAll alloc rest
    (final, outcome :: outcomes)

end Session

end WeakIdentity
