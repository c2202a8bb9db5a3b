import WeakIdentity.Proofs.Ledger.Basic

/-! The law of the ledger: two calls return the same id just when they are about the same object and
no call in between made the registry forget it. -/

namespace WeakIdentity

namespace Ledger

variable {ledger : Ledger} {n : Nat}

/-! ### The counter -/

theorem minted_ask_le (ledger : Ledger) (query : Query) (n : Nat) :
    ledger.minted n ≤ (ledger.ask query).1.minted n := by
  rcases ledger.ask_cases query with ⟨same, -, -⟩ | ⟨-, -, given⟩ | ⟨-, id, -, forgot⟩
  · rw [same]
  · rw [given]
    simp only [assign]
    split
    · next same => subst same; omega
    · exact Nat.le_refl _
  · rw [forgot]
    exact Nat.le_refl _

theorem minted_le_after (ledger : Ledger) (queries : List Query) (n : Nat) :
    ledger.minted n ≤ (ledger.after queries).minted n := by
  induction queries generalizing ledger with
  | nil => exact Nat.le_refl _
  | cons query rest ih => exact Nat.le_trans (minted_ask_le ledger query n) (ih _)

/-- A call assigns no id, or the next one. -/
theorem assigned_ask (ledger : Ledger) (query : Query) (n : Nat) :
    (ledger.ask query).1.notices.filterMap (Notice.assigned? n) =
        ledger.notices.filterMap (Notice.assigned? n) ∨
      query = ⟨n, .observe, query.object⟩ ∧
        (ledger.ask query).2 = some (.nth (ledger.minted n)) ∧
        (ledger.ask query).1.notices.filterMap (Notice.assigned? n) =
          ledger.notices.filterMap (Notice.assigned? n) ++ [.nth (ledger.minted n)] := by
  rcases ledger.ask_cases query with ⟨same, -, -⟩ | ⟨observe, -, given⟩ | ⟨-, id, -, forgot⟩
  · rw [same]
    exact Or.inl rfl
  · rw [given]
    by_cases same : query.registry = n
    · subst same
      refine Or.inr ⟨by rw [← observe], rfl, ?_⟩
      simp [assign, Notice.assigned?]
    · left
      simp [assign, Notice.assigned?, same]
  · rw [forgot]
    left
    simp [forget, Notice.assigned?]

/-- The ids in the notices of a registry are the first ones in order. -/
def Consecutive (ledger : Ledger) : Prop :=
  ∀ n, ledger.notices.filterMap (Notice.assigned? n) =
    (List.range (ledger.minted n)).map ObjectId.nth

theorem consecutive_ask (h : ledger.Consecutive) (query : Query) :
    (ledger.ask query).1.Consecutive := by
  rcases ledger.ask_cases query with ⟨same, -, -⟩ | ⟨-, -, given⟩ | ⟨-, id, -, forgot⟩
  · rw [same]
    exact h
  · rw [given]
    intro k
    have before := h k
    by_cases same : query.registry = k
    · subst same
      simp [assign, Notice.assigned?, before, List.range_succ]
    · simp [assign, Notice.assigned?, before, same, Ne.symm same]
  · rw [forgot]
    intro k
    have before := h k
    simp [forget, Notice.assigned?, before]

theorem consecutive_after (h : ledger.Consecutive) (queries : List Query) :
    (ledger.after queries).Consecutive := by
  induction queries generalizing ledger with
  | nil => exact h
  | cons query rest ih => exact ih (consecutive_ask h query)

/-! ### Owners of ids -/

/-- An id has been given. -/
def Given (ledger : Ledger) (n : Nat) (id : ObjectId) : Prop :=
  ∃ k < ledger.minted n, id = .nth k

/-- The ids in the table have been given, to one object each. -/
structure Proper (ledger : Ledger) (n : Nat) : Prop where
  given : ∀ o id, ledger.id? n o = some id → ledger.Given n id
  owner : ∀ o p id, ledger.id? n o = some id → ledger.id? n p = some id → o = p

/-- An id has been assigned, and no object has it any more. -/
def Retired (ledger : Ledger) (n : Nat) (id : ObjectId) : Prop :=
  ledger.Given n id ∧ ∀ o, ledger.id? n o ≠ some id

theorem proper_empty (n : Nat) : Proper {} n :=
  ⟨fun o id h => by simp at h, fun o p id h => by simp at h⟩

theorem Given.mono {other : Ledger} {id : ObjectId} (h : ledger.Given n id)
    (le : ledger.minted n ≤ other.minted n) : other.Given n id := by
  obtain ⟨k, bound, same⟩ := h
  exact ⟨k, Nat.lt_of_lt_of_le bound le, same⟩

/-- The next id has not been given, as long as the counter has not wrapped. -/
theorem Given.ne_next {id : ObjectId} (h : ledger.Given n id)
    (few : ledger.minted n < UInt64.size) : id ≠ .nth (ledger.minted n) := by
  obtain ⟨k, bound, rfl⟩ := h
  intro same
  have numbers := ObjectId.nth_inj (Nat.lt_trans bound few) few same
  omega

theorem id?_assign (ledger : Ledger) (n : Nat) (o p : Object) :
    (ledger.assign n o).id? n p =
      if p = o then some (.nth (ledger.minted n)) else ledger.id? n p := by
  simp [assign]

theorem id?_assign_of_ne (ledger : Ledger) {n k : Nat} (h : n ≠ k) (o p : Object) :
    (ledger.assign k o).id? n p = ledger.id? n p := by
  simp [assign, h]

theorem minted_assign (ledger : Ledger) (n : Nat) (o : Object) :
    (ledger.assign n o).minted n = ledger.minted n + 1 := by
  simp [assign]

theorem minted_assign_of_ne (ledger : Ledger) {n k : Nat} (h : n ≠ k) (o : Object) :
    (ledger.assign k o).minted n = ledger.minted n := by
  simp [assign, h]

theorem id?_forget_eq_some {k : Nat} {o p : Object} {old id : ObjectId}
    (h : (ledger.forget k o old).id? n p = some id) :
    ledger.id? n p = some id ∧ ¬(n = k ∧ p = o) := by
  simp only [forget] at h
  split at h
  · cases h
  · next other => exact ⟨h, other⟩

theorem Proper.assign (proper : ledger.Proper n) (few : ledger.minted n < UInt64.size)
    (o : Object) : (ledger.assign n o).Proper n := by
  constructor
  · intro p id h
    rw [id?_assign] at h
    split at h
    · exact ⟨ledger.minted n, by rw [minted_assign]; omega, (Option.some.inj h).symm⟩
    · exact (proper.given p id h).mono (by rw [minted_assign]; omega)
  · intro p q id hp hq
    rw [id?_assign] at hp hq
    split at hp
    · next same =>
      split at hq
      · next same' => exact same.trans same'.symm
      · rw [← Option.some.inj hp] at hq
        exact absurd rfl ((proper.given q _ hq).ne_next few)
    · split at hq
      · rw [← Option.some.inj hq] at hp
        exact absurd rfl ((proper.given p _ hp).ne_next few)
      · exact proper.owner p q id hp hq

theorem Proper.ask (proper : ledger.Proper n) (query : Query)
    (few : (ledger.ask query).1.minted n ≤ UInt64.size) : (ledger.ask query).1.Proper n := by
  rcases ledger.ask_cases query with ⟨same, -, -⟩ | ⟨-, -, given⟩ | ⟨-, id, -, forgot⟩
  · rw [same]
    exact proper
  · rw [given] at few ⊢
    by_cases same : n = query.registry
    · subst same
      rw [minted_assign] at few
      exact proper.assign (by omega) query.object
    · constructor
      · intro p x h
        rw [id?_assign_of_ne ledger same] at h
        exact (proper.given p x h).mono (by rw [minted_assign_of_ne ledger same])
      · intro p q x hp hq
        rw [id?_assign_of_ne ledger same] at hp hq
        exact proper.owner p q x hp hq
  · rw [forgot]
    exact ⟨fun p x h => proper.given p x (id?_forget_eq_some h).1,
      fun p q x hp hq => proper.owner p q x (id?_forget_eq_some hp).1 (id?_forget_eq_some hq).1⟩

theorem Proper.after (proper : ledger.Proper n) (queries : List Query)
    (few : (ledger.after queries).minted n ≤ UInt64.size) : (ledger.after queries).Proper n := by
  induction queries generalizing ledger with
  | nil => exact proper
  | cons query rest ih =>
    have step : (ledger.ask query).1.minted n ≤ UInt64.size :=
      Nat.le_trans (minted_le_after _ rest n) few
    exact ih (proper.ask query step) few

theorem Retired.ask {id : ObjectId} (retired : ledger.Retired n id) (query : Query)
    (few : (ledger.ask query).1.minted n ≤ UInt64.size) : (ledger.ask query).1.Retired n id := by
  refine ⟨retired.1.mono (minted_ask_le ledger query n), fun o found => ?_⟩
  rcases ledger.ask_cases query with ⟨same, -, -⟩ | ⟨-, -, given⟩ | ⟨-, old, -, forgot⟩
  · rw [same] at found
    exact retired.2 o found
  · rw [given] at few found
    by_cases same : n = query.registry
    · subst same
      rw [minted_assign] at few
      rw [id?_assign] at found
      split at found
      · exact retired.1.ne_next (by omega) (Option.some.inj found).symm
      · exact retired.2 o found
    · rw [id?_assign_of_ne ledger same] at found
      exact retired.2 o found
  · rw [forgot] at found
    exact retired.2 o (id?_forget_eq_some found).1

/-! ### Returned ids -/

/-- A returned id is in the table afterwards, and was before unless the call assigns it. -/
theorem returns_cases {d : CallRecord} (follows : d.answer = (ledger.ask d.query).2) {o : Object}
    {id : ObjectId} (h : d.Returns n o id) :
    (ledger.ask d.query).1.id? n o = some id ∧
      (ledger.id? n o = some id ∨ (ledger.id? n o = none ∧ id = .nth (ledger.minted n) ∧
        (ledger.ask d.query).1.minted n = ledger.minted n + 1)) := by
  obtain ⟨⟨k, call, p⟩, answer⟩ := d
  obtain ⟨rfl, rfl, other, told⟩ := h
  simp only at follows told other ⊢
  rcases ledger.ask_cases ⟨k, call, p⟩ with ⟨same, -, -⟩ | ⟨-, unknown, given⟩ | ⟨forget, -⟩
  · have found : ledger.id? k p = some id := by rw [← told, follows, same]
    rw [same]
    exact ⟨found, Or.inl found⟩
  · have new : id = .nth (ledger.minted k) := by
      rw [given, told] at follows
      exact Option.some.inj follows
    rw [given]
    exact ⟨by rw [id?_assign, if_pos rfl, new], Or.inr ⟨unknown, new, minted_assign ledger k p⟩⟩
  · exact absurd forget other

theorem kept_of_not_forgets {d : CallRecord} (follows : d.answer = (ledger.ask d.query).2)
    {o : Object} {id : ObjectId} (found : ledger.id? n o = some id) (h : ¬d.Forgets n o) :
    (ledger.ask d.query).1.id? n o = some id := by
  obtain ⟨⟨k, call, p⟩, answer⟩ := d
  simp only at follows ⊢
  rcases ledger.ask_cases ⟨k, call, p⟩ with ⟨same, -, -⟩ | ⟨-, unknown, given⟩ |
    ⟨rfl, old, known, forgot⟩
  · rw [same]
    exact found
  · rw [given]
    simp only [assign]
    split
    · next same =>
      obtain ⟨rfl, rfl⟩ := same
      rw [unknown] at found
      cases found
    · exact found
  · rw [forgot] at follows ⊢
    simp only [forget]
    split
    · next same =>
      obtain ⟨rfl, rfl⟩ := same
      exact absurd ⟨rfl, by simp [follows]⟩ h
    · exact found

theorem retired_of_forgets (proper : ledger.Proper n) {d : CallRecord}
    (follows : d.answer = (ledger.ask d.query).2) {o : Object} {id : ObjectId}
    (found : ledger.id? n o = some id) (h : d.Forgets n o) :
    (ledger.ask d.query).1.Retired n id := by
  obtain ⟨query, answer⟩ := d
  obtain ⟨rfl, told⟩ := h
  refine ⟨(proper.given o id found).mono (minted_ask_le _ _ n), fun p later => ?_⟩
  simp only [ask, found] at later
  obtain ⟨before, other⟩ := id?_forget_eq_some later
  exact other ⟨rfl, proper.owner p o id before found⟩

/-- No call returns an id that has been retired. -/
theorem Retired.not_returned {id : ObjectId} (retired : ledger.Retired n id)
    {between rest : List CallRecord} {d : CallRecord}
    (explains : ledger.Explains (between ++ d :: rest))
    (few : (ledger.after ((between ++ d :: rest).map CallRecord.query)).minted n ≤ UInt64.size)
    {o : Object} : ¬d.Returns n o id := by
  induction between generalizing ledger with
  | nil =>
    rw [List.nil_append, explains_cons] at explains
    intro returned
    have later := (returns_cases explains.1 returned).1
    have step : (ledger.ask d.query).1.minted n ≤ UInt64.size :=
      Nat.le_trans (minted_le_after _ _ n) few
    exact (retired.ask d.query step).2 o later
  | cons e between ih =>
    rw [List.cons_append, explains_cons] at explains
    have step : (ledger.ask e.query).1.minted n ≤ UInt64.size :=
      Nat.le_trans (minted_le_after _ _ n) few
    exact ih (retired.ask e.query step) explains.2 few

/-- A later call returns the id of an object in the table just when it is about that object, and no
call before it made the registry forget the object. -/
theorem returns_iff (proper : ledger.Proper n) {a b : Object} {x y : ObjectId}
    (found : ledger.id? n a = some x) {between rest : List CallRecord} {d : CallRecord}
    (explains : ledger.Explains (between ++ d :: rest))
    (few : (ledger.after ((between ++ d :: rest).map CallRecord.query)).minted n ≤ UInt64.size)
    (returned : d.Returns n b y) :
    x = y ↔ a = b ∧ ∀ e ∈ between, ¬e.Forgets n a := by
  -- The ledger moves along the calls in between, and keeps `x` for `a` until one forgets it.
  induction between generalizing ledger with
  | nil =>
    rw [List.nil_append, explains_cons] at explains
    simp only [List.not_mem_nil, false_implies, implies_true, and_true]
    rcases (returns_cases explains.1 returned).2 with known | ⟨unknown, rfl, advanced⟩
    · constructor
      · rintro rfl
        exact proper.owner a b x found known
      · rintro rfl
        exact Option.some.inj (found.symm.trans known)
    · have bound : (ledger.ask d.query).1.minted n ≤ UInt64.size :=
        Nat.le_trans (minted_le_after _ _ n) few
      constructor
      · intro same
        exact absurd same ((proper.given a x found).ne_next (by omega))
      · rintro rfl
        rw [unknown] at found
        cases found
  | cons e between ih =>
    rw [List.cons_append, explains_cons] at explains
    have step : (ledger.ask e.query).1.minted n ≤ UInt64.size :=
      Nat.le_trans (minted_le_after _ _ n) few
    by_cases forgets : e.Forgets n a
    · have retired := retired_of_forgets proper explains.1 found forgets
      constructor
      · rintro rfl
        exact absurd returned (retired.not_returned explains.2 few)
      · intro both
        exact absurd forgets (both.2 e List.mem_cons_self)
    · have kept := kept_of_not_forgets explains.1 found forgets
      rw [ih (proper.ask e.query step) kept explains.2 few]
      simp [forgets]

end Ledger

end WeakIdentity
