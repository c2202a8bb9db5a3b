import Mathlib.Data.List.Induction
import WeakIdentity.Proofs.Json.Words
import WeakIdentity.Options

/-! How options are read from pairs. Pairs are read if each of them names a field of its own and has
a number for it; otherwise the first pair that breaks this is reported, and it is reported for its
key before it is reported for a repetition, and for a repetition before its value. -/

namespace WeakIdentity

namespace Options

/-- Where a field stands in a list of all fields. -/
def Field.position : Field → Nat
  | .initialCapacity => 0
  | .sweepThreshold => 1

/-- The value of a field that is not given. -/
def Field.default : Field → UInt64
  | .initialCapacity => 0
  | .sweepThreshold => 1024

def get (options : Options) : Field → UInt64
  | .initialCapacity => options.initialCapacity
  | .sweepThreshold => options.sweepThreshold

theorem ext_get {first second : Options} (h : ∀ field, first.get field = second.get field) :
    first = second := by
  cases first
  cases second
  exact congr (congrArg Options.mk (h .initialCapacity)) (h .sweepThreshold)

/-- A field is named by its name or by its position. -/
def Key.Names (key : Key) (field : Field) : Prop :=
  key = .name field.name ∨ key = .index field.position

theorem Key.Names.field {key : Key} {field : Field} (names : key.Names field) :
    key.field = .ok field := by
  rcases names with rfl | rfl <;> cases field <;> simp [Key.field, Field.name, Field.position]

/-- A key names one field at most. -/
theorem Key.Names.unique {key : Key} {field other : Field} (names : key.Names field)
    (names' : key.Names other) : field = other :=
  Except.ok.inj (names.field.symm.trans names'.field)

theorem Key.field_name {text : String} (unknown : ∀ field : Field, text ≠ field.name) :
    (Key.name text).field = .error (.unknownField text) := by
  rw [Key.field, if_neg (unknown _), if_neg (unknown _)]

theorem Key.field_index {position : Nat} (unknown : ∀ field : Field, position ≠ field.position) :
    (Key.index position).field = .error (.unknownIndex position) := by
  match position with
  | 0 => exact absurd rfl (unknown .initialCapacity)
  | 1 => exact absurd rfl (unknown .sweepThreshold)
  | _ + 2 => rfl

/-! ### The grammar -/

/-- Whether some pair gives a value to a field. -/
def Mentions (pairs : List (Key × Json.Value)) (field : Field) : Prop :=
  ∃ pair ∈ pairs, pair.1.Names field

/-- Every pair names a field, no field is named twice, and every value is a number of 64 bits. -/
structure WellFormed (pairs : List (Key × Json.Value)) : Prop where
  known : ∀ pair ∈ pairs, ∃ field, pair.1.Names field
  once : pairs.Pairwise fun first second =>
    ∀ field, first.1.Names field → ¬second.1.Names field
  words : ∀ pair ∈ pairs, ∃ n : UInt64, pair.2 = .ofNat n.toNat

/-- What is wrong with a pair that follows others. The key is looked at first, then whether its
field is new, and last the value. -/
inductive Faulty (before : List (Key × Json.Value)) : Key × Json.Value → DecodeError → Prop
  | name {text : String} {value : Json.Value} (unknown : ∀ field : Field, text ≠ field.name) :
      Faulty before (.name text, value) (.unknownField text)
  | index {position : Nat} {value : Json.Value}
      (unknown : ∀ field : Field, position ≠ field.position) :
      Faulty before (.index position, value) (.unknownIndex position)
  | duplicate {key : Key} {value : Json.Value} {field : Field} (names : key.Names field)
      (old : Mentions before field) : Faulty before (key, value) (.duplicateField field.name)
  | value {key : Key} {value : Json.Value} {field : Field} {e : DecodeError}
      (names : key.Names field) (new : ¬Mentions before field) (misfit : Misfit .size value e) :
      Faulty before (key, value) e

/-- The error of the first pair that cannot follow those before it. -/
def FirstFault (pairs : List (Key × Json.Value)) (e : DecodeError) : Prop :=
  ∃ before pair after, pairs = before ++ pair :: after ∧ WellFormed before ∧ Faulty before pair e

/-- Options with the values that pairs give, and the defaults for all other fields. -/
structure Chooses (pairs : List (Key × Json.Value)) (options : Options) : Prop where
  given : ∀ pair ∈ pairs, ∀ field, pair.1.Names field →
    pair.2 = .ofNat (options.get field).toNat
  default : ∀ field, ¬Mentions pairs field → options.get field = field.default

theorem wellFormed_nil : WellFormed [] := by
  constructor <;> simp

theorem not_mentions_nil (field : Field) : ¬Mentions [] field := by
  simp [Mentions]

theorem mentions_concat {before : List (Key × Json.Value)} {pair : Key × Json.Value}
    {field : Field} :
    Mentions (before ++ [pair]) field ↔ Mentions before field ∨ pair.1.Names field := by
  simp [Mentions, or_and_right, exists_or]

/-- A pair that names a new field and has a number for it can be added. -/
theorem WellFormed.concat {before : List (Key × Json.Value)} (formed : WellFormed before)
    {key : Key} {field : Field} (names : key.Names field) (new : ¬Mentions before field)
    (n : UInt64) :
    WellFormed (before ++ [(key, .ofNat n.toNat)]) where
  known := by
    simp only [List.mem_append, List.mem_singleton]
    rintro pair (mem | rfl)
    · exact formed.known pair mem
    · exact ⟨field, names⟩
  once := by
    refine List.pairwise_append.mpr ⟨formed.once, List.pairwise_singleton _ _, ?_⟩
    intro first mem second last other names' again
    rw [List.mem_singleton.mp last] at again
    rw [again.unique names] at names'
    exact new ⟨first, mem, names'⟩
  words := by
    simp only [List.mem_append, List.mem_singleton]
    rintro pair (mem | rfl)
    · exact formed.words pair mem
    · exact ⟨n, rfl⟩

/-- A list of pairs can be extended by a pair, or the pair is faulty. -/
theorem concat_cases (before : List (Key × Json.Value)) (pair : Key × Json.Value) :
    (∃ key field, ∃ n : UInt64, pair = (key, .ofNat n.toNat) ∧ key.Names field ∧
      ¬Mentions before field) ∨
    ∃ e, Faulty before pair e := by
  obtain ⟨key, value⟩ := pair
  by_cases known : ∃ field, key.Names field
  · obtain ⟨field, names⟩ := known
    by_cases old : Mentions before field
    · exact Or.inr ⟨_, .duplicate names old⟩
    · obtain ⟨n, rfl⟩ | ⟨e, misfit⟩ := decodeWord_cases .size value
      · exact Or.inl ⟨key, field, n, rfl, names, old⟩
      · exact Or.inr ⟨e, .value names old misfit⟩
  · cases key with
    | name text => exact Or.inr ⟨_, .name fun field same => known ⟨field, Or.inl (same ▸ rfl)⟩⟩
    | index position =>
      exact Or.inr ⟨_, .index fun field same => known ⟨field, Or.inr (same ▸ rfl)⟩⟩

/-- Pairs follow the grammar, or some pair is the first that does not. -/
theorem wellFormed_or_firstFault (pairs : List (Key × Json.Value)) :
    WellFormed pairs ∨ ∃ e, FirstFault pairs e := by
  induction pairs using List.reverseRecOn with
  | nil => exact Or.inl wellFormed_nil
  | append_singleton before pair ih =>
    rcases ih with formed | ⟨e, first, bad, after, rfl, formed, faulty⟩
    · obtain ⟨key, field, n, rfl, names, new⟩ | ⟨e, faulty⟩ := concat_cases before pair
      · exact Or.inl (formed.concat names new n)
      · exact Or.inr ⟨e, before, pair, [], rfl, formed, faulty⟩
    · exact Or.inr ⟨e, first, bad, after ++ [pair], by simp, formed, faulty⟩

/-! ### Reading pairs -/

@[simp] theorem Draft.get?_set_self (draft : Draft) (field : Field) (n : UInt64) :
    (draft.set field n).get? field = some n := by
  cases field <;> rfl

theorem Draft.get?_set_of_ne (draft : Draft) {field other : Field} (ne : other ≠ field)
    (n : UInt64) : (draft.set field n).get? other = draft.get? other := by
  cases field with
  | initialCapacity =>
    cases other with
    | initialCapacity => exact absurd rfl ne
    | sweepThreshold => rfl
  | sweepThreshold =>
    cases other with
    | initialCapacity => rfl
    | sweepThreshold => exact absurd rfl ne

theorem Draft.get_finish (draft : Draft) (field : Field) :
    draft.finish.get field = (draft.get? field).getD field.default := by
  cases field <;> rfl

/-- A draft holds the values of the pairs that have been read, and nothing else. -/
structure Draft.Holds (draft : Draft) (pairs : List (Key × Json.Value)) : Prop where
  formed : WellFormed pairs
  value : ∀ pair ∈ pairs, ∀ field, pair.1.Names field →
    ∃ n, draft.get? field = some n ∧ pair.2 = .ofNat n.toNat
  absent : ∀ field, ¬Mentions pairs field → draft.get? field = none

theorem Draft.holds_nil : Draft.Holds {} [] where
  formed := wellFormed_nil
  value := by simp
  absent field _ := by cases field <;> rfl

namespace Draft.Holds

variable {draft : Draft} {before : List (Key × Json.Value)}

theorem isSome_of_mentions (holds : draft.Holds before) {field : Field}
    (old : Mentions before field) : (draft.get? field).isSome := by
  obtain ⟨pair, mem, names⟩ := old
  obtain ⟨n, found, -⟩ := holds.value pair mem field names
  rw [found, Option.isSome_some]

/-- One more pair that follows the grammar is read. -/
theorem read (holds : draft.Holds before) {key : Key} {field : Field} (names : key.Names field)
    (new : ¬Mentions before field) (n : UInt64) :
    ∃ next, draft.read (key, .ofNat n.toNat) = .ok next ∧
      next.Holds (before ++ [(key, .ofNat n.toNat)]) := by
  refine ⟨draft.set field n, ?_, holds.formed.concat names new n, ?_, ?_⟩
  · simp [Draft.read, names.field, holds.absent field new, decodeWord_ofNat]
  · intro pair mem other names'
    rcases List.mem_append.mp mem with old | last
    · have ne : other ≠ field := by
        rintro rfl
        exact new ⟨pair, old, names'⟩
      rw [get?_set_of_ne draft ne]
      exact holds.value pair old other names'
    · obtain rfl := List.mem_singleton.mp last
      rw [names'.unique names, get?_set_self]
      exact ⟨n, rfl, rfl⟩
  · intro other unmentioned
    rw [mentions_concat, not_or] at unmentioned
    have ne : other ≠ field := by
      rintro rfl
      exact unmentioned.2 names
    rw [get?_set_of_ne draft ne]
    exact holds.absent other unmentioned.1

/-- A faulty pair is reported. -/
theorem read_faulty (holds : draft.Holds before) {pair : Key × Json.Value} {e : DecodeError}
    (faulty : Faulty before pair e) : draft.read pair = .error e := by
  cases faulty with
  | name unknown => simp [Draft.read, Key.field_name unknown]
  | index unknown => simp [Draft.read, Key.field_index unknown]
  | duplicate names old => simp [Draft.read, names.field, holds.isSome_of_mentions old]
  | value names new misfit =>
    simp [Draft.read, names.field, holds.absent _ new, misfit.decodeWord]

/-- The options of a finished draft are those that the pairs choose. -/
theorem chooses (holds : draft.Holds before) : Chooses before draft.finish where
  given pair mem field names := by
    obtain ⟨n, found, same⟩ := holds.value pair mem field names
    rw [get_finish, found, Option.getD_some, same]
  default field unmentioned := by
    rw [get_finish, holds.absent field unmentioned, Option.getD_none]

end Draft.Holds

theorem readPairs_append (draft : Draft) (before after : List (Key × Json.Value)) :
    readPairs draft (before ++ after) =
      match readPairs draft before with
      | .error e => .error e
      | .ok next => readPairs next after := by
  induction before generalizing draft with
  | nil => rfl
  | cons pair rest ih =>
    simp only [List.cons_append, readPairs]
    split
    · rfl
    · exact ih _

theorem WellFormed.dropLast {before : List (Key × Json.Value)} {pair : Key × Json.Value}
    (formed : WellFormed (before ++ [pair])) : WellFormed before where
  known other mem := formed.known other (List.mem_append_left _ mem)
  once := (List.pairwise_append.mp formed.once).1
  words other mem := formed.words other (List.mem_append_left _ mem)

/-- The last of pairs that follow the grammar names a new field. -/
theorem WellFormed.new {before : List (Key × Json.Value)} {pair : Key × Json.Value}
    (formed : WellFormed (before ++ [pair])) {field : Field} (names : pair.1.Names field) :
    ¬Mentions before field := by
  rintro ⟨other, mem, names'⟩
  exact (List.pairwise_append.mp formed.once).2.2 other mem pair (by simp) field names' names

theorem readPairs_of_wellFormed {pairs : List (Key × Json.Value)} (formed : WellFormed pairs) :
    ∃ draft, readPairs {} pairs = .ok draft ∧ draft.Holds pairs := by
  induction pairs using List.reverseRecOn with
  | nil => exact ⟨{}, rfl, Draft.holds_nil⟩
  | append_singleton before pair ih =>
    obtain ⟨draft, read, holds⟩ := ih formed.dropLast
    obtain ⟨field, names⟩ := formed.known pair (by simp)
    obtain ⟨n, value⟩ := formed.words pair (by simp)
    obtain ⟨key, _⟩ := pair
    obtain rfl : _ = Json.Value.ofNat n.toNat := value
    obtain ⟨next, step, holds'⟩ := holds.read names (formed.new names) n
    refine ⟨next, ?_, holds'⟩
    rw [readPairs_append, read]
    simp only [readPairs, step]

theorem readPairs_of_firstFault {pairs : List (Key × Json.Value)} {e : DecodeError}
    (fault : FirstFault pairs e) : readPairs {} pairs = .error e := by
  obtain ⟨before, pair, after, rfl, formed, faulty⟩ := fault
  obtain ⟨draft, read, holds⟩ := readPairs_of_wellFormed formed
  rw [readPairs_append, read]
  simp only [readPairs, holds.read_faulty faulty]

/-- The pairs leave nothing open. -/
theorem Chooses.unique {pairs : List (Key × Json.Value)} {first second : Options}
    (h : Chooses pairs first) (h' : Chooses pairs second) : first = second := by
  refine ext_get fun field => ?_
  by_cases mentioned : Mentions pairs field
  · obtain ⟨pair, mem, names⟩ := mentioned
    have same := (h.given pair mem field names).symm.trans (h'.given pair mem field names)
    exact UInt64.toNat.inj (by simpa [Json.Value.ofNat] using same)
  · rw [h.default field mentioned, h'.default field mentioned]

theorem ofPairs_of_wellFormed {pairs : List (Key × Json.Value)} (formed : WellFormed pairs) :
    ∃ options, ofPairs pairs = .ok options ∧ Chooses pairs options := by
  obtain ⟨draft, read, holds⟩ := readPairs_of_wellFormed formed
  exact ⟨draft.finish, by rw [ofPairs, read]; rfl, holds.chooses⟩

theorem ofPairs_of_firstFault {pairs : List (Key × Json.Value)} {e : DecodeError}
    (fault : FirstFault pairs e) : ofPairs pairs = .error e := by
  rw [ofPairs, readPairs_of_firstFault fault]
  rfl

/-- Just the pairs that follow the grammar are read, and for what they choose. -/
theorem ofPairs_eq_ok_iff {pairs : List (Key × Json.Value)} {options : Options} :
    ofPairs pairs = .ok options ↔ WellFormed pairs ∧ Chooses pairs options := by
  constructor
  · intro read
    obtain formed | ⟨e, fault⟩ := wellFormed_or_firstFault pairs
    · obtain ⟨chosen, read', chooses⟩ := ofPairs_of_wellFormed formed
      obtain rfl := Except.ok.inj (read.symm.trans read')
      exact ⟨formed, chooses⟩
    · cases read.symm.trans (ofPairs_of_firstFault fault)
  · rintro ⟨formed, chooses⟩
    obtain ⟨chosen, read, chooses'⟩ := ofPairs_of_wellFormed formed
    rw [read, chooses.unique chooses']

/-- All other pairs are reported for the first of them that is faulty. -/
theorem ofPairs_eq_error_iff {pairs : List (Key × Json.Value)} {e : DecodeError} :
    ofPairs pairs = .error e ↔ FirstFault pairs e := by
  refine ⟨fun read => ?_, ofPairs_of_firstFault⟩
  obtain formed | ⟨e', fault⟩ := wellFormed_or_firstFault pairs
  · obtain ⟨chosen, read', -⟩ := ofPairs_of_wellFormed formed
    cases read.symm.trans read'
  · rwa [Except.error.inj (read.symm.trans (ofPairs_of_firstFault fault))]

end Options

end WeakIdentity
