import Mathlib.Data.Finset.Card
import WeakIdentity.Proofs.Ledger.Law

/-! What the observations of a run do to the ledger, as long as nothing is forgotten: every object
keeps its id, the counter goes up once for each object that had none, and the ids that are seen do
not depend on the order of the calls. -/

namespace WeakIdentity

/-- The objects that a registry is made to observe. -/
def observed (n : Nat) (queries : List Query) : Finset Object :=
  ((queries.filter fun query => query.registry = n ∧ query.call = .observe).map
    Query.object).toFinset

theorem mem_observed {n : Nat} {queries : List Query} {o : Object} :
    o ∈ observed n queries ↔ (⟨n, .observe, o⟩ : Query) ∈ queries := by
  simp only [observed, List.mem_toFinset, List.mem_map, List.mem_filter, decide_eq_true_eq]
  constructor
  · rintro ⟨⟨k, call, p⟩, ⟨mem, rfl, rfl⟩, rfl⟩
    exact mem
  · intro mem
    exact ⟨_, ⟨mem, rfl, rfl⟩, rfl⟩

theorem mem_observed_cons {n : Nat} {query : Query} {rest : List Query} {o : Object} :
    o ∈ observed n (query :: rest) ↔ query = ⟨n, .observe, o⟩ ∨ o ∈ observed n rest := by
  rw [mem_observed, mem_observed, List.mem_cons, eq_comm]

namespace Ledger

variable {ledger : Ledger} {n : Nat} {queries : List Query} {calls : List CallRecord}

/-- The objects that get their id in these calls. -/
def fresh (ledger : Ledger) (n : Nat) (queries : List Query) : Finset Object :=
  (observed n queries).filter fun o => ledger.id? n o = none

theorem mem_fresh {o : Object} :
    o ∈ ledger.fresh n queries ↔
      (⟨n, .observe, o⟩ : Query) ∈ queries ∧ ledger.id? n o = none := by
  rw [fresh, Finset.mem_filter, mem_observed]

/-- What one registry sees of a call that forgets nothing. -/
theorem ask_cases_at (ledger : Ledger) (n : Nat) {query : Query} (h : query.call ≠ .forget) :
    (ledger.id? n = (ledger.ask query).1.id? n ∧
      (ledger.ask query).1.minted n = ledger.minted n ∧
      ∀ o, query = ⟨n, .observe, o⟩ →
        ∃ id, ledger.id? n o = some id ∧ (ledger.ask query).2 = some id) ∨
    ∃ o, query = ⟨n, .observe, o⟩ ∧ ledger.id? n o = none ∧
      ledger.ask query = (ledger.assign n o, some (.nth (ledger.minted n))) := by
  rcases ledger.ask_cases query with ⟨same, known, -⟩ | ⟨observe, unknown, given⟩ | ⟨forget, -⟩
  · refine Or.inl ⟨by rw [same], by rw [same], ?_⟩
    rintro o rfl
    obtain ⟨id, found⟩ := Option.ne_none_iff_exists'.mp (known rfl)
    exact ⟨id, found, by rw [same]; exact found⟩
  · obtain ⟨k, call, o⟩ := query
    simp only at observe unknown given
    subst observe
    by_cases other : k = n
    · subst other
      exact Or.inr ⟨o, rfl, unknown, given⟩
    · refine Or.inl ⟨?_, ?_, ?_⟩
      · funext p
        rw [given, id?_assign_of_ne ledger (Ne.symm other)]
      · rw [given, minted_assign_of_ne ledger (Ne.symm other)]
      · intro p same
        exact absurd (congrArg Query.registry same) other
  · exact absurd forget h

theorem fresh_cons_of_known {other : Ledger} {query : Query} (ids : ledger.id? n = other.id? n)
    (known : ∀ o, query = ⟨n, .observe, o⟩ → ledger.id? n o ≠ none) (rest : List Query) :
    ledger.fresh n (query :: rest) = other.fresh n rest := by
  ext p
  rw [mem_fresh, mem_fresh, ← ids, List.mem_cons]
  constructor
  · rintro ⟨rfl | mem, unknown⟩
    · exact absurd unknown (known p rfl)
    · exact ⟨mem, unknown⟩
  · rintro ⟨mem, unknown⟩
    exact ⟨Or.inr mem, unknown⟩

theorem card_fresh_cons {o : Object} (unknown : ledger.id? n o = none) (rest : List Query) :
    (ledger.fresh n (⟨n, .observe, o⟩ :: rest)).card =
      ((ledger.assign n o).fresh n rest).card + 1 := by
  have apart : o ∉ (ledger.assign n o).fresh n rest := by
    rw [mem_fresh, id?_assign, if_pos rfl]
    simp
  rw [← Finset.card_insert_of_notMem apart]
  congr 1
  ext p
  rw [Finset.mem_insert, mem_fresh, mem_fresh, id?_assign, List.mem_cons]
  by_cases itself : p = o
  · subst itself
    simp [unknown]
  · simp [itself]

/-- The counter goes up once for each object that had no id. -/
theorem minted_after (h : ∀ query ∈ queries, query.call ≠ .forget) :
    (ledger.after queries).minted n = ledger.minted n + (ledger.fresh n queries).card := by
  induction queries generalizing ledger with
  | nil => rfl
  | cons query rest ih =>
    rw [Ledger.after, ih fun other mem => h other (List.mem_cons_of_mem _ mem)]
    rcases ledger.ask_cases_at n (h query List.mem_cons_self) with
      ⟨ids, counter, known⟩ | ⟨o, rfl, unknown, given⟩
    · have had : ∀ o, query = ⟨n, .observe, o⟩ → ledger.id? n o ≠ none := by
        intro o asked
        obtain ⟨id, found, -⟩ := known o asked
        simp [found]
      rw [counter, fresh_cons_of_known ids had]
    · have grown := card_fresh_cons unknown rest
      simp only [given, minted_assign, grown]
      omega

/-- An object keeps its id. -/
theorem id?_after (h : ∀ query ∈ queries, query.call ≠ .forget) {o : Object} {id : ObjectId}
    (found : ledger.id? n o = some id) : (ledger.after queries).id? n o = some id := by
  induction queries generalizing ledger with
  | nil => exact found
  | cons query rest ih =>
    refine ih (fun other mem => h other (List.mem_cons_of_mem _ mem)) ?_
    rcases ledger.ask_cases_at n (h query List.mem_cons_self) with
      ⟨ids, -, -⟩ | ⟨p, rfl, unknown, given⟩
    · rw [← ids]
      exact found
    · rw [given, id?_assign]
      split
      · next same =>
        rw [← same, found] at unknown
        cases unknown
      · exact found

/-- What is returned at any time is the id at the end. -/
theorem id?_of_returns (explains : ledger.Explains calls)
    (h : ∀ query ∈ calls.map CallRecord.query, query.call ≠ .forget) {d : CallRecord}
    (mem : d ∈ calls) {o : Object} {id : ObjectId} (returned : d.Returns n o id) :
    (ledger.after (calls.map CallRecord.query)).id? n o = some id := by
  induction calls generalizing ledger with
  | nil => cases mem
  | cons first rest ih =>
    rw [explains_cons] at explains
    have later : ∀ query ∈ rest.map CallRecord.query, query.call ≠ .forget :=
      fun query there => h query (List.mem_cons_of_mem _ there)
    rcases List.mem_cons.mp mem with rfl | there
    · exact id?_after later (returns_cases explains.1 returned).1
    · exact ih explains.2 later there

/-- An id that observations show: one that an observed object had, or one of as many new ones as
there are observed objects that had none. -/
def Shows (ledger : Ledger) (n : Nat) (queries : List Query) (x : ObjectId) : Prop :=
  (∃ o ∈ observed n queries, ledger.id? n o = some x) ∨
    ∃ i < (ledger.fresh n queries).card, x = .nth (ledger.minted n + i)

theorem shows_cons_of_known {other : Ledger} {query : Query} {rest : List Query}
    {answer : Option ObjectId} {x : ObjectId} (ids : ledger.id? n = other.id? n)
    (counter : other.minted n = ledger.minted n)
    (known : ∀ o, query = ⟨n, .observe, o⟩ → ∃ id, ledger.id? n o = some id ∧ answer = some id) :
    ledger.Shows n (query :: rest) x ↔
      (∃ o, query = ⟨n, .observe, o⟩ ∧ answer = some x) ∨ other.Shows n rest x := by
  have had : ∀ o, query = ⟨n, .observe, o⟩ → ledger.id? n o ≠ none := by
    intro o asked
    obtain ⟨id, found, -⟩ := known o asked
    simp [found]
  simp only [Shows, fresh_cons_of_known ids had, counter, ← ids, mem_observed_cons]
  constructor
  · rintro (⟨o, asked | mem, found⟩ | new)
    · obtain ⟨id, found', told⟩ := known o asked
      exact Or.inl ⟨o, asked, by rw [told, ← found', found]⟩
    · exact Or.inr (Or.inl ⟨o, mem, found⟩)
    · exact Or.inr (Or.inr new)
  · rintro (⟨o, asked, told⟩ | ⟨o, mem, found⟩ | new)
    · obtain ⟨id, found, told'⟩ := known o asked
      exact Or.inl ⟨o, Or.inl asked, by rw [found, ← told', told]⟩
    · exact Or.inl ⟨o, Or.inr mem, found⟩
    · exact Or.inr new

theorem shows_cons_of_unknown {o : Object} {rest : List Query} {x : ObjectId}
    (unknown : ledger.id? n o = none) :
    ledger.Shows n (⟨n, .observe, o⟩ :: rest) x ↔
      x = .nth (ledger.minted n) ∨ (ledger.assign n o).Shows n rest x := by
  have other : ∀ {p id}, ledger.id? n p = some id → p ≠ o := by
    rintro p id found rfl
    rw [unknown] at found
    cases found
  simp only [Shows, card_fresh_cons unknown, minted_assign, id?_assign, mem_observed_cons]
  constructor
  · rintro (⟨p, itself | mem, found⟩ | ⟨i, small, rfl⟩)
    · exact absurd (congrArg Query.object itself).symm (other found)
    · exact Or.inr (Or.inl ⟨p, mem, by rw [if_neg (other found), found]⟩)
    · cases i with
      | zero => exact Or.inl rfl
      | succ i =>
        exact Or.inr (Or.inr ⟨i, by omega, by rw [Nat.add_assoc, Nat.add_comm 1 i]⟩)
  · rintro (rfl | ⟨p, mem, found⟩ | ⟨i, small, rfl⟩)
    · exact Or.inr ⟨0, by omega, rfl⟩
    · split at found
      · exact Or.inr ⟨0, by omega, (Option.some.inj found).symm⟩
      · exact Or.inl ⟨p, Or.inr mem, found⟩
    · exact Or.inr ⟨i + 1, by omega, by rw [Nat.add_assoc, Nat.add_comm 1 i]⟩

/-- What one call shows, and what the others do after it. -/
theorem shows_cons {query : Query} (h : query.call ≠ .forget) (rest : List Query) (x : ObjectId) :
    ledger.Shows n (query :: rest) x ↔
      (∃ o, query = ⟨n, .observe, o⟩ ∧ (ledger.ask query).2 = some x) ∨
        (ledger.ask query).1.Shows n rest x := by
  rcases ledger.ask_cases_at n h with ⟨ids, counter, known⟩ | ⟨o, rfl, unknown, given⟩
  · exact shows_cons_of_known ids counter known
  · rw [shows_cons_of_unknown unknown, given]
    refine or_congr_left ⟨fun same => ⟨o, rfl, by rw [same]⟩, ?_⟩
    rintro ⟨-, -, told⟩
    exact (Option.some.inj told).symm

/-- The ids that observations see do not depend on the order in which they are made. -/
theorem seen_iff (explains : ledger.Explains calls)
    (h : ∀ query ∈ calls.map CallRecord.query, query.call ≠ .forget) (x : ObjectId) :
    (∃ o, (⟨⟨n, .observe, o⟩, some x⟩ : CallRecord) ∈ calls) ↔
      ledger.Shows n (calls.map CallRecord.query) x := by
  induction calls generalizing ledger with
  | nil => simp [Shows, observed, fresh]
  | cons first rest ih =>
    rw [explains_cons] at explains
    obtain ⟨told, explained⟩ := explains
    have later := ih explained fun query there => h query (List.mem_cons_of_mem _ there)
    have first_or_later : (∃ o, (⟨⟨n, .observe, o⟩, some x⟩ : CallRecord) ∈ first :: rest) ↔
        (∃ o, first.query = ⟨n, .observe, o⟩ ∧ (ledger.ask first.query).2 = some x) ∨
          ∃ o, (⟨⟨n, .observe, o⟩, some x⟩ : CallRecord) ∈ rest := by
      rw [← told, ← exists_or]
      refine exists_congr fun o => ?_
      rw [List.mem_cons, eq_comm, CallRecord.mk.injEq]
    rw [first_or_later, later, List.map_cons, shows_cons (h first.query List.mem_cons_self)]

end Ledger

end WeakIdentity
