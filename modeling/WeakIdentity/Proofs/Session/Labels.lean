import WeakIdentity.Proofs.Session.Identity
import WeakIdentity.Proofs.Tally

/-! Labels match their referents: two labels by the ids of one registry are equal just when they
name the same field or element of the same object, or the same static field, as long as the object
is not forgotten in between. So a tally of labels is a tally of referents. -/

namespace WeakIdentity

open Scene Ledger

/-- What a label is of. -/
inductive Referent where
  | field (object : Object) (name : String)
  | element (object : Object) (index : UInt64)
  /-- A static field of the type with a short name. -/
  | static (ownerType name : String)
  deriving DecidableEq, Repr

namespace Referent

def object? : Referent → Option Object
  | .field object _ => some object
  | .element object _ => some object
  | .static _ _ => none

/-- The label of a referent, if `id` is the id of its object. -/
def label (id : ObjectId) : Referent → Location
  | .field _ name => .field id name
  | .element _ index => .element id index
  | .static ownerType name => .static ownerType name

theorem owner_label {referent : Referent} {o : Object} (object : referent.object? = some o)
    (id : ObjectId) : (referent.label id).owner = some id := by
  cases referent with
  | field object name => rfl
  | element object index => rfl
  | static ownerType name => cases object

/-- Labels distinguish referents as far as ids distinguish objects. -/
theorem label_eq_iff {first second : Referent} {x y : ObjectId} {kept : Object → Prop}
    (ids : ∀ o p, first.object? = some o → second.object? = some p → (x = y ↔ o = p ∧ kept o)) :
    first.label x = second.label y ↔
      first = second ∧ ∀ o, first.object? = some o → kept o := by
  cases first with
  | field o name =>
    cases second with
    | field p name' =>
      simp only [label, Location.field.injEq, ids o p rfl rfl, field.injEq, object?,
        Option.some.injEq, forall_eq']
      tauto
    | _ => simp [label]
  | element o index =>
    cases second with
    | element p index' =>
      simp only [label, Location.element.injEq, ids o p rfl rfl, element.injEq, object?,
        Option.some.injEq, forall_eq']
      tauto
    | _ => simp [label]
  | static ownerType name => cases second <;> simp [label, object?]

end Referent

namespace Session

/-- What is labelled, if the labeler uses the ids of the registry `n`. -/
def referent? (s : Session) (n : Nat) : LabelAction → Option Referent
  | .field labeler slot name _ => do
    let query ← s.labelQuery? labeler slot
    if query.registry = n then some (.field query.object name) else none
  | .element labeler slot index _ => do
    let query ← s.labelQuery? labeler slot
    if query.registry = n then some (.element query.object index) else none
  | .static labeler typeName name _ => do
    let labeler ← s.labelers.get? labeler
    if s.world.refNumber? labeler = some n then some (.static (TypeName.shorten typeName) name)
    else none
  | _ => none

variable {s : Session} {alloc : Allocator} {n : Nat}

theorem label_owner {action : LabelAction} {labeler : String} {slot : Slot} {keep : Option String}
    {label : ObjectId → Location} (owner : ∀ id, (label id).owner = some id)
    (labels : s.label? action = s.labelOwner? labeler slot keep label)
    (asks : s.query? (.label action) = s.labelQuery? labeler slot) {query : Query}
    (asked : s.labelQuery? labeler slot = some query) (alloc : Allocator) :
    ∃ id, (s.act alloc (.label action)).2 = .label (label id) ∧
      s.calls alloc (.label action) = [⟨⟨query.registry, .observe, query.object⟩, some id⟩] := by
  obtain ⟨-, handle, n, -, -, -, rfl⟩ := labelQuery?_eq_some asked
  have answered : (s.act alloc (.label action)).2 =
      .label (label (s.world.observe n handle.object).2) := by
    rw [act, act?, labels, labelOwner?, asked]
    rfl
  refine ⟨_, answered, ?_⟩
  rw [calls, asks, asked, answered]
  simp [Answer.returned?, owner]

/-- The label of a referent has the id that the registry returns for its object. -/
theorem label_referent {action : LabelAction} {referent : Referent}
    (found : s.referent? n action = some referent) (alloc : Allocator) :
    ∃ id, (s.act alloc (.label action)).2 = .label (referent.label id) ∧
      ∀ o, referent.object? = some o →
        s.calls alloc (.label action) = [⟨⟨n, .observe, o⟩, some id⟩] := by
  cases action with
  | field labeler slot name keep =>
    obtain ⟨query, asked, same⟩ := Option.bind_eq_some_iff.mp found
    obtain ⟨rfl, made⟩ := Option.ite_none_right_eq_some.mp same
    obtain ⟨id, answered, told⟩ :=
      label_owner (fun _ => rfl) (label?_field s labeler slot name keep) rfl asked alloc
    rw [← Option.some.inj made]
    exact ⟨id, answered, fun o object => by rw [told, ← Option.some.inj object]⟩
  | element labeler slot index keep =>
    obtain ⟨query, asked, same⟩ := Option.bind_eq_some_iff.mp found
    obtain ⟨rfl, made⟩ := Option.ite_none_right_eq_some.mp same
    obtain ⟨id, answered, told⟩ :=
      label_owner (fun _ => rfl) (label?_element s labeler slot index keep) rfl asked alloc
    rw [← Option.some.inj made]
    exact ⟨id, answered, fun o object => by rw [told, ← Option.some.inj object]⟩
  | static labeler typeName name keep =>
    obtain ⟨holder, there, same⟩ := Option.bind_eq_some_iff.mp found
    obtain ⟨-, made⟩ := Option.ite_none_right_eq_some.mp same
    rw [← Option.some.inj made]
    refine ⟨.nth 0, ?_, nofun⟩
    simp [act, act?, label?, there, Labeler.staticField, Referent.label]
  | _ => cases found

/-- Static fields are labelled without a call of the registry. -/
theorem world_static (s : Session) (alloc : Allocator) (labeler typeName name : String)
    (keep : Option String) :
    (s.act alloc (.label (.static labeler typeName name keep))).1.world = s.world := by
  cases found : s.labelers.get? labeler with
  | none => simp [act, act?, label?, found]
  | some holder => cases keep <;> simp [act, act?, label?, found, keepLocation]

/-! ### Ids between two actions -/

theorem explains_ledger (alloc : Allocator) (first second : List Action) :
    (ledger alloc first).Explains ((({} : Session).run alloc first).1.history alloc second) := by
  have explained := (reachable_run alloc (first ++ second)).agrees.1
  rw [history_append, explains_append] at explained
  exact explained.2

theorem returns_observe (n : Nat) (o : Object) (id : ObjectId) :
    CallRecord.Returns ⟨⟨n, .observe, o⟩, some id⟩ n o id := ⟨rfl, rfl, by simp, rfl⟩

/-- An id that an action returns is in the ledger after it. -/
theorem ledger_returned {actions : List Action} {action : Action} {o : Object} {id : ObjectId}
    (told : (({} : Session).run alloc actions).1.calls alloc action =
      [⟨⟨n, .observe, o⟩, some id⟩]) :
    (ledger alloc (actions ++ [action])).id? n o = some id := by
  have explained := explains_ledger alloc actions [action]
  rw [ledger_append]
  rw [history, told, history, List.append_nil] at explained ⊢
  exact (returns_cases (explains_cons.mp explained).1 (returns_observe n o id)).1

/-- An id stays in the ledger until the object is forgotten. -/
theorem ledger_kept {first second : List Action} {o : Object} {id : ObjectId}
    (found : (ledger alloc first).id? n o = some id)
    (kept : ∀ record ∈ (({} : Session).run alloc first).1.history alloc second,
      ¬record.Forgets n o) :
    (ledger alloc (first ++ second)).id? n o = some id := by
  have explained := explains_ledger alloc first second
  rw [ledger_append]
  generalize (({} : Session).run alloc first).1.history alloc second = calls at kept explained
  generalize ledger alloc first = before at found explained
  induction calls generalizing before with
  | nil => exact found
  | cons record rest ih =>
    rw [List.forall_mem_cons] at kept
    rw [explains_cons] at explained
    exact ih kept.2 _ (kept_of_not_forgets explained.1 found kept.1) explained.2

/-- Two actions return the same id just if they are about one object that is not forgotten in
between. -/
theorem returned_iff {before between : List Action} {first second : Action} {a b : Object}
    {x y : ObjectId}
    (few : (ledger alloc (before ++ [first] ++ between ++ [second])).minted n ≤ UInt64.size)
    (told : (({} : Session).run alloc before).1.calls alloc first = [⟨⟨n, .observe, a⟩, some x⟩])
    (told' : (({} : Session).run alloc (before ++ [first] ++ between)).1.calls alloc second =
      [⟨⟨n, .observe, b⟩, some y⟩]) :
    x = y ↔ a = b ∧
      ∀ record ∈ (({} : Session).run alloc (before ++ [first])).1.history alloc between,
        ¬record.Forgets n a := by
  have explained := explains_ledger alloc (before ++ [first]) (between ++ [second])
  have proper : (ledger alloc (before ++ [first])).Proper n := by
    have bound := minted_le_append alloc (before ++ [first]) (between ++ [second]) n
    rw [← List.append_assoc] at bound
    exact (proper_empty n).after _ (Nat.le_trans bound few)
  rw [List.append_assoc, ledger_append] at few
  rw [history_append, ← run_append, history, told', history, List.append_nil] at explained few
  exact returns_iff proper (ledger_returned told) explained few (returns_observe n b y)

/-- A registry forgets an object with an id after the action `i` and before the action `j`. -/
def ForgetsBetween (s : Session) (alloc : Allocator) (actions : List Action) (n : Nat) (o : Object)
    (i j : Nat) : Prop :=
  ∃ record ∈ (s.run alloc (actions.take (i + 1))).1.history alloc ((actions.take j).drop (i + 1)),
    record.Forgets n o

theorem not_forgetsBetween_succ {actions : List Action} {o : Object} {i : Nat} :
    ¬s.ForgetsBetween alloc actions n o i (i + 1) := by
  rintro ⟨record, mem, -⟩
  rw [List.drop_of_length_le (List.length_take_le _ _)] at mem
  cases mem

end Session

/-- A label that was made: which action made it, what of, and the label. -/
structure Labelling where
  position : Nat
  referent : Referent
  location : Location
  deriving DecidableEq, Repr

/-- The label was made by the action at its position, by a labeler that uses the ids of the registry
`n`. -/
def Labelling.Occurs (l : Labelling) (s : Session) (alloc : Allocator) (actions : List Action)
    (n : Nat) : Prop :=
  ∃ action, actions[l.position]? = some (.label action) ∧
    (s.run alloc (actions.take l.position)).1.referent? n action = some l.referent ∧
    ((s.run alloc (actions.take l.position)).1.act alloc (.label action)).2 = .label l.location

namespace Session

variable {actions : List Action} {first second : Labelling}

theorem take_eq_append {i j : Nat} (later : i < j) (actions : List Action) :
    actions.take j = actions.take (i + 1) ++ (actions.take j).drop (i + 1) := by
  have whole := List.take_append_drop (i + 1) (actions.take j)
  rw [List.take_take, Nat.min_eq_left later] at whole
  exact whole.symm

/-- A label that was made is that of its referent, by an id that was returned. -/
theorem occurs_cases (occurs : first.Occurs s alloc actions n) :
    ∃ action id, actions.take (first.position + 1) = actions.take first.position ++ [action] ∧
      first.location = first.referent.label id ∧
      ∀ o, first.referent.object? = some o →
        (s.run alloc (actions.take first.position)).1.calls alloc action =
          [⟨⟨n, .observe, o⟩, some id⟩] := by
  obtain ⟨action, here, found, answered⟩ := occurs
  obtain ⟨id, labelled, told⟩ := label_referent found alloc
  refine ⟨.label action, id, ?_, ?_, told⟩
  · rw [List.take_add_one, here, Option.toList_some]
  · exact Answer.label.inj (answered.symm.trans labelled)

section Ledger

variable (few : (ledger alloc actions).minted n ≤ UInt64.size)
include few

theorem location_eq_iff (occurs : first.Occurs {} alloc actions n)
    (occurs' : second.Occurs {} alloc actions n) (later : first.position < second.position) :
    first.location = second.location ↔
      first.referent = second.referent ∧ ∀ o, first.referent.object? = some o →
        ¬ForgetsBetween {} alloc actions n o first.position second.position := by
  obtain ⟨action, id, here, label, told⟩ := occurs_cases occurs
  obtain ⟨action', id', here', label', told'⟩ := occurs_cases occurs'
  have split := take_eq_append later actions
  rw [label, label']
  refine Referent.label_eq_iff fun o p object object' => ?_
  simp only [ForgetsBetween, not_exists, not_and]
  generalize (actions.take second.position).drop (first.position + 1) = between at split ⊢
  have bound := minted_le_append alloc (actions.take (second.position + 1))
    (actions.drop (second.position + 1)) n
  rw [List.take_append_drop, here', split, here] at bound
  rw [here]
  refine returned_iff (Nat.le_trans bound few) (told o object) ?_
  rw [← here, ← split]
  exact told' p object'

/-- Two labels match just if their referents do, as long as no object is forgotten in between. -/
theorem locations_match {labels : List Labelling}
    (made : ∀ l ∈ labels, l.Occurs {} alloc actions n)
    (kept : ∀ first ∈ labels, ∀ second ∈ labels, first.position < second.position →
      first.referent = second.referent → ∀ o, first.referent.object? = some o →
        ¬ForgetsBetween {} alloc actions n o first.position second.position)
    (mem : first ∈ labels) (mem' : second ∈ labels) :
    first.location = second.location ↔ first.referent = second.referent := by
  rcases Nat.lt_trichotomy first.position second.position with later | same | earlier
  · rw [location_eq_iff few (made first mem) (made second mem') later]
    exact and_iff_left_of_imp (kept first mem second mem' later)
  · -- One action makes one label.
    obtain ⟨action, here, found, answered⟩ := made first mem
    obtain ⟨action', here', found', answered'⟩ := made second mem'
    rw [same] at here found answered
    obtain rfl := Action.label.inj (Option.some.inj (here.symm.trans here'))
    exact iff_of_true (Answer.label.inj (answered.symm.trans answered'))
      (Option.some.inj (found.symm.trans found'))
  · rw [eq_comm, location_eq_iff few (made second mem') (made first mem) earlier,
      eq_comm (a := first.referent)]
    exact and_iff_left_of_imp (kept second mem' first mem earlier)

end Ledger

/-- As long as the object of a label lives and is not forgotten, the registry returns the id in the
label. -/
theorem idOf_eq_owner (occurs : first.Occurs {} alloc actions n) {o : Object}
    (object : first.referent.object? = some o) {j : Nat} (later : first.position < j) {t : Session}
    (reached : (({} : Session).run alloc (actions.take j)).1 = t) (usable : t.world.Open n)
    (live : t.world.heap.isLive o = true)
    (kept : ¬ForgetsBetween {} alloc actions n o first.position j) :
    t.world.idOf n o = first.location.owner := by
  obtain ⟨action, id, here, label, told⟩ := occurs_cases occurs
  have agrees := agrees_ledger alloc (actions.take j)
  rw [reached] at agrees
  have found := ledger_returned (told o object)
  rw [← here] at found
  simp only [ForgetsBetween, not_exists, not_and] at kept
  rw [agrees.ids n o usable live, take_eq_append later actions, ledger_kept found kept, label,
    Referent.owner_label object]

end Session

namespace Labelling

section Tally

variable {labels : List Labelling} (matching : ∀ first ∈ labels, ∀ second ∈ labels,
  (first.location = second.location ↔ first.referent = second.referent))
include matching

theorem card_locations :
    (labels.map Labelling.location).toFinset.card =
      (labels.map Labelling.referent).toFinset.card := by
  -- The pairs of a referent and its label are as many as the referents, and as the labels.
  have members : ∀ pair ∈ (labels.map fun l => (l.referent, l.location)).toFinset,
      ∃ l ∈ labels, (l.referent, l.location) = pair := fun pair mem =>
    List.mem_map.mp (List.mem_toFinset.mp mem)
  have referents : (labels.map Labelling.referent).toFinset =
      (labels.map fun l => (l.referent, l.location)).toFinset.image Prod.fst := by
    ext referent
    simp
  have locations : (labels.map Labelling.location).toFinset =
      (labels.map fun l => (l.referent, l.location)).toFinset.image Prod.snd := by
    ext location
    simp
  rw [referents, locations, Finset.card_image_of_injOn, Finset.card_image_of_injOn]
  · intro pair mem pair' mem' same
    obtain ⟨l, there, rfl⟩ := members pair mem
    obtain ⟨l', there', rfl⟩ := members pair' mem'
    exact Prod.ext same ((matching l there l' there').mpr same)
  · intro pair mem pair' mem' same
    obtain ⟨l, there, rfl⟩ := members pair mem
    obtain ⟨l', there', rfl⟩ := members pair' mem'
    exact Prod.ext ((matching l there l' there').mp same) same

theorem count_location {l : Labelling} (mem : l ∈ labels) :
    (labels.map Labelling.location).count l.location = labels.countP (·.referent = l.referent) := by
  rw [List.count, List.countP_map]
  refine List.countP_congr fun other there => ?_
  simp [matching other there l mem]

end Tally

end Labelling

namespace Session

/-- Labels match exactly their referents. Two labels that labelers made by the ids of one
registry, at any two points of a run, are the same just if both name the same field or element of
one object or the same static field, and the object was not forgotten in between. So a tally of
labels has one row for each referent, with the number of times it was labelled. The id in a
label is the one that the registry returns as long as the object lives and is not forgotten, and
static fields are labelled without the registry. There are 2^64 ids, after which they begin
again. -/
theorem labels_match (alloc : Allocator) (actions : List Action) (n : Nat)
    (few : ((({} : Session).run alloc actions).1.world.assigned n).length ≤ 2 ^ 64) :
    (∀ first second : Labelling, first.Occurs {} alloc actions n →
      second.Occurs {} alloc actions n → first.position < second.position →
      (first.location = second.location ↔
        first.referent = second.referent ∧ ∀ o, first.referent.object? = some o →
          ¬ForgetsBetween {} alloc actions n o first.position second.position)) ∧
    (∀ labels : List Labelling, (∀ l ∈ labels, l.Occurs {} alloc actions n) →
      (∀ first ∈ labels, ∀ second ∈ labels, first.position < second.position →
        first.referent = second.referent → ∀ o, first.referent.object? = some o →
          ¬ForgetsBetween {} alloc actions n o first.position second.position) →
      ∀ tally, Tally.ofList (labels.map Labelling.location) = tally →
      tally.keys.Nodup ∧
      (∀ x, x ∈ tally.keys ↔ ∃ l ∈ labels, l.location = x) ∧
      tally.size = (labels.map Labelling.referent).toFinset.card ∧
      (∀ l ∈ labels, tally.count l.location = labels.countP (·.referent = l.referent)) ∧
      (tally.rows.map Prod.snd).sum = labels.length) ∧
    (∀ l : Labelling, l.Occurs {} alloc actions n → ∀ o, l.referent.object? = some o →
      ∀ j, l.position < j → ∀ t, (({} : Session).run alloc (actions.take j)).1 = t →
      t.world.Open n → t.world.heap.isLive o = true →
      ¬ForgetsBetween {} alloc actions n o l.position j → t.world.idOf n o = l.location.owner) ∧
    (∀ (s : Session) labeler typeName name keep,
      (s.act alloc (.label (.static labeler typeName name keep))).1.world = s.world) := by
  rw [length_assigned] at few
  refine ⟨fun first second occurs occurs' later => location_eq_iff few occurs occurs' later, ?_, ?_,
    fun s => world_static s alloc⟩
  · rintro labels made kept tally rfl
    have matching : ∀ first ∈ labels, ∀ second ∈ labels, _ := fun first mem second mem' =>
      locations_match few made kept mem mem'
    refine ⟨Tally.nodup_keys _, fun x => ?_, ?_, fun l mem => ?_, ?_⟩
    · rw [Tally.mem_keys, List.mem_map]
    · rw [Tally.size_ofList, Labelling.card_locations matching]
    · rw [Tally.count_ofList, Labelling.count_location matching mem]
    · rw [Tally.sum_counts, List.length_map]
  · exact fun l occurs o object j later t reached usable live kept =>
      idOf_eq_owner occurs object later reached usable live kept

/-- Two labelers of one registry. An object is labelled, destroyed and reclaimed, and another one at
the same address is labelled by both. -/
def relabelled : List Action :=
  [.handle (.openRegistry "r" (some (.object [("sweep_threshold", .ofNat 1)]))),
    .handle (.openLabeler "l" (.named "r")), .handle (.openLabeler "m" (.named "r")),
    .handle (.create (.named "a") .int "a"), .label (.field "l" (.named "a") "v" none),
    .handle (.drop (.named "a")),
    .handle (.create (.named "b") .int "b"), .label (.element "m" (.named "b") 0 none),
    .handle (.create (.named "c") .int "c"), .label (.field "m" (.named "c") "v" none),
    .label (.field "l" (.named "c") "v" none)]

theorem labels_match_relabelled :
    ∃ labels : List Labelling,
      labels = [⟨4, .field ⟨1⟩ "v", .field (.nth 0) "v"⟩, ⟨9, .field ⟨3⟩ "v", .field (.nth 2) "v"⟩,
        ⟨10, .field ⟨3⟩ "v", .field (.nth 2) "v"⟩] ∧
      ((({} : Session).run .recycling relabelled).1.world.assigned 1).length ≤ 2 ^ 64 ∧
      (({} : Session).run .recycling relabelled).1.world.heap.address ⟨1⟩ =
        (({} : Session).run .recycling relabelled).1.world.heap.address ⟨3⟩ ∧
      (∀ l ∈ labels, l.Occurs {} .recycling relabelled 1) ∧
      (Location.field (.nth 0) "v" = .field (.nth 2) "v" ↔
        Referent.field ⟨1⟩ "v" = .field ⟨3⟩ "v" ∧ ∀ o, some ⟨1⟩ = some o →
          ¬ForgetsBetween {} .recycling relabelled 1 o 4 9) ∧
      (Tally.ofList (labels.map Labelling.location)).size = 2 := by
  have few : ((({} : Session).run .recycling relabelled).1.world.assigned 1).length ≤ 2 ^ 64 := by
    decide +kernel
  have before : Labelling.Occurs ⟨4, .field ⟨1⟩ "v", .field (.nth 0) "v"⟩ {} .recycling
      relabelled 1 := ⟨_, rfl, by decide +kernel, by decide +kernel⟩
  have after : Labelling.Occurs ⟨9, .field ⟨3⟩ "v", .field (.nth 2) "v"⟩ {} .recycling
      relabelled 1 := ⟨_, rfl, by decide +kernel, by decide +kernel⟩
  have again : Labelling.Occurs ⟨10, .field ⟨3⟩ "v", .field (.nth 2) "v"⟩ {} .recycling
      relabelled 1 := ⟨_, rfl, by decide +kernel, by decide +kernel⟩
  obtain ⟨law, tally, -, -⟩ := labels_match .recycling relabelled 1 few
  refine ⟨_, rfl, few, by decide +kernel, by simp [before, after, again],
    law _ _ before after (by decide), ?_⟩
  refine (tally _ (by simp [before, after, again]) ?_ _ rfl).2.2.1.trans (by decide)
  -- Only the last two labels have one referent, and nothing is between them.
  intro first mem second mem' later same o _ forgets
  simp only [List.mem_cons, List.not_mem_nil, or_false] at mem mem'
  rcases mem with rfl | rfl | rfl <;> rcases mem' with rfl | rfl | rfl <;> simp at later same
  exact not_forgetsBetween_succ forgets

end Session

end WeakIdentity
