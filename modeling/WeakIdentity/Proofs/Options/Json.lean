import WeakIdentity.Proofs.Options.Pairs
import WeakIdentity.Proofs.Text.ByteOrder
import WeakIdentity.Proofs.Registry.Options

/-! How options are read from JSON. An object is read as the list of its entries by ascending key,
each key once. An array is read by position: its first two items as far as it has them, and after
them its length. -/

namespace WeakIdentity.Options

/-! ### Entries by key -/

/-- Entries with ascending keys. -/
def Ascending (entries : List (String × Json.Value)) : Prop :=
  entries.Pairwise fun first second => first.1 < second.1

theorem mem_insert {entries : List (String × Json.Value)} (ascending : Ascending entries)
    {entry other : String × Json.Value} :
    other ∈ sortedEntries.insert entries entry ↔
      other = entry ∨ other ∈ entries ∧ other.1 ≠ entry.1 := by
  induction entries with
  | nil => simp [sortedEntries.insert]
  | cons first rest ih =>
    obtain ⟨least, ascending⟩ := List.pairwise_cons.mp ascending
    rw [sortedEntries.insert]
    split
    · next same =>
      -- No key of the rest is the one that is replaced.
      have apart : ∀ other ∈ rest, other.1 ≠ entry.1 := by
        intro other mem again
        have less := least other mem
        rw [again, same] at less
        exact String.lt_irrefl _ less
      grind
    · split
      · next ne less =>
        have apart : ∀ other ∈ rest, other.1 ≠ entry.1 := by
          intro other mem again
          have later := String.lt_trans less (least other mem)
          rw [again] at later
          exact String.lt_irrefl _ later
        grind
      · have among := ih ascending
        grind

theorem ascending_insert {entries : List (String × Json.Value)} (ascending : Ascending entries)
    (entry : String × Json.Value) : Ascending (sortedEntries.insert entries entry) := by
  induction entries with
  | nil => exact List.pairwise_singleton _ _
  | cons first rest ih =>
    obtain ⟨least, later⟩ := List.pairwise_cons.mp ascending
    rw [sortedEntries.insert]
    split
    · next same => exact List.pairwise_cons.mpr ⟨same ▸ least, later⟩
    · split
      · next ne less =>
        refine List.pairwise_cons.mpr ⟨fun other mem => ?_, ascending⟩
        rcases List.mem_cons.mp mem with rfl | mem
        · exact less
        · exact String.lt_trans less (least other mem)
      · next ne notLess =>
        refine List.pairwise_cons.mpr ⟨fun other mem => ?_, ih later⟩
        rcases (mem_insert later).mp mem with rfl | ⟨mem, -⟩
        · exact Std.lt_of_le_of_ne (Std.not_lt.mp notLess) (Ne.symm ne)
        · exact least other mem

theorem insert_perm {entries : List (String × Json.Value)} {entry : String × Json.Value}
    (new : entry.1 ∉ entries.map Prod.fst) :
    (sortedEntries.insert entries entry).Perm (entry :: entries) := by
  induction entries with
  | nil => exact List.Perm.refl _
  | cons first rest ih =>
    rw [List.map_cons, List.mem_cons, not_or] at new
    rw [sortedEntries.insert, if_neg new.1]
    split
    · exact List.Perm.refl _
    · exact ((ih new.2).cons first).trans (List.Perm.swap entry first rest)

theorem sortedEntries_concat (entries : List (String × Json.Value)) (entry : String × Json.Value) :
    sortedEntries (entries ++ [entry]) = sortedEntries.insert (sortedEntries entries) entry := by
  simp [sortedEntries, List.foldl_append]

theorem ascending_sortedEntries (entries : List (String × Json.Value)) :
    Ascending (sortedEntries entries) := by
  induction entries using List.reverseRecOn with
  | nil => exact List.Pairwise.nil
  | append_singleton before entry ih =>
    rw [sortedEntries_concat]
    exact ascending_insert ih entry

theorem get?_concat (entries : List (String × Json.Value)) (entry : String × Json.Value)
    (key : String) :
    (Json.Value.object (entries ++ [entry])).get? key =
      if entry.1 = key then some entry.2 else (Json.Value.object entries).get? key := by
  simp only [Json.Value.get?, List.reverse_append, List.reverse_singleton, List.singleton_append,
    List.find?_cons]
  by_cases same : entry.1 = key
  · simp [same]
  · have differs : (entry.1 == key) = false := beq_false_of_ne same
    simp only [differs, if_neg same]

/-- The sorted entries are those that can be looked up. -/
theorem mem_sortedEntries {entries : List (String × Json.Value)} {key : String}
    {value : Json.Value} :
    (key, value) ∈ sortedEntries entries ↔ (Json.Value.object entries).get? key = some value := by
  induction entries using List.reverseRecOn with
  | nil => simp [sortedEntries, Json.Value.get?]
  | append_singleton before entry ih =>
    rw [sortedEntries_concat, mem_insert (ascending_sortedEntries before), ih, get?_concat]
    obtain ⟨name, last⟩ := entry
    by_cases same : name = key
    · simp [same, eq_comm]
    · simp [same, Ne.symm same]

theorem sortedEntries_perm {entries : List (String × Json.Value)}
    (apart : (entries.map Prod.fst).Nodup) : (sortedEntries entries).Perm entries := by
  induction entries using List.reverseRecOn with
  | nil => exact List.Perm.refl _
  | append_singleton before entry ih =>
    rw [List.map_append, List.nodup_append] at apart
    have sorted := ih apart.1
    have new : entry.1 ∉ (sortedEntries before).map Prod.fst := by
      rw [(sorted.map Prod.fst).mem_iff]
      exact fun mem => apart.2.2 _ mem _ (by simp) rfl
    rw [sortedEntries_concat]
    calc sortedEntries.insert (sortedEntries before) entry
      _ |>.Perm (entry :: sortedEntries before) := insert_perm new
      _ |>.Perm (entry :: before) := sorted.cons entry
      _ |>.Perm (before ++ [entry]) := (List.perm_append_singleton entry before).symm

/-! ### Items by position -/

/-- The pairs that give items to the fields in order. -/
def positional (items : List Json.Value) : List (Key × Json.Value) :=
  items.zipIdx.map fun (value, i) => (.index i, value)

theorem mem_positional {items : List Json.Value} {pair : Key × Json.Value} :
    pair ∈ positional items ↔ ∃ i, items[i]? = some pair.2 ∧ pair.1 = .index i := by
  simp only [positional, List.mem_map, Prod.exists, List.mem_zipIdx_iff_getElem?, Prod.ext_iff]
  grind

theorem index_names_iff {i : Nat} {field : Field} :
    (Key.index i).Names field ↔ i = field.position := by
  simp [Key.Names]

theorem mentions_positional {items : List Json.Value} {field : Field} :
    Mentions (positional items) field ↔ field.position < items.length := by
  simp only [Mentions, mem_positional]
  constructor
  · rintro ⟨pair, ⟨i, found, key⟩, names⟩
    rw [key, index_names_iff] at names
    exact names ▸ (List.getElem?_eq_some_iff.mp found).1
  · intro bound
    exact ⟨(.index field.position, items[field.position]),
      ⟨field.position, List.getElem?_eq_getElem bound, rfl⟩, index_names_iff.mpr rfl⟩

theorem exists_position {i : Nat} (bound : i < 2) : ∃ field : Field, field.position = i := by
  match i with
  | 0 => exact ⟨.initialCapacity, rfl⟩
  | 1 => exact ⟨.sweepThreshold, rfl⟩

/-- Words in the places of fields follow the grammar. -/
theorem wellFormed_positional {items : List Json.Value} (short : items.length ≤ 2)
    (words : ∀ item ∈ items, ∃ n : UInt64, item = .ofNat n.toNat) :
    WellFormed (positional items) where
  known pair mem := by
    obtain ⟨i, found, key⟩ := mem_positional.mp mem
    obtain ⟨field, position⟩ := exists_position
      (Nat.lt_of_lt_of_le (List.getElem?_eq_some_iff.mp found).1 short)
    exact ⟨field, key ▸ index_names_iff.mpr position.symm⟩
  once := by
    have positions : (items.zipIdx.map Prod.snd).Pairwise (· < ·) := by
      rw [List.zipIdx_map_snd]
      exact List.pairwise_lt_range'
    refine List.pairwise_map.mpr ((List.pairwise_map.mp positions).imp ?_)
    intro first second less field names names'
    rw [index_names_iff] at names names'
    omega
  words pair mem := by
    obtain ⟨i, found, -⟩ := mem_positional.mp mem
    exact words pair.2 (List.mem_of_getElem? found)

/-- The first item that is no word, with its error. -/
def FirstMisfit (items : List Json.Value) (e : DecodeError) : Prop :=
  ∃ before item after, items = before ++ item :: after ∧
    (∀ earlier ∈ before, ∃ n : UInt64, earlier = .ofNat n.toNat) ∧ Misfit .size item e

theorem words_or_firstMisfit (items : List Json.Value) :
    (∀ item ∈ items, ∃ n : UInt64, item = .ofNat n.toNat) ∨ ∃ e, FirstMisfit items e := by
  induction items using List.reverseRecOn with
  | nil => exact Or.inl (by simp)
  | append_singleton before item ih =>
    rcases ih with words | ⟨e, first, bad, after, rfl, words, misfit⟩
    · obtain word | ⟨e, misfit⟩ := decodeWord_cases .size item
      · refine Or.inl fun other mem => ?_
        rcases List.mem_append.mp mem with earlier | last
        · exact words other earlier
        · exact List.mem_singleton.mp last ▸ word
      · exact Or.inr ⟨e, before, item, [], rfl, words, misfit⟩
    · exact Or.inr ⟨e, first, bad, after ++ [item], by simp, words, misfit⟩

theorem firstFault_positional {items : List Json.Value} {e : DecodeError}
    (short : items.length ≤ 2) (first : FirstMisfit items e) : FirstFault (positional items) e := by
  obtain ⟨before, item, after, rfl, words, misfit⟩ := first
  rw [List.length_append, List.length_cons] at short
  obtain ⟨field, position⟩ := exists_position (i := before.length) (by omega)
  have new : ¬Mentions (positional before) field := by
    rw [mentions_positional]
    omega
  refine ⟨positional before, (.index before.length, item),
    (after.zipIdx (before.length + 1)).map fun (value, i) => (.index i, value), ?_,
    wellFormed_positional (by omega) words,
    .value (index_names_iff.mpr position.symm) new misfit⟩
  simp [positional, List.zipIdx_append, List.zipIdx_cons]

/-- The options that items give: the item in the place of a field, or the default. -/
def Fills (items : List Json.Value) (options : Options) : Prop :=
  ∀ field : Field,
    match items[field.position]? with
    | some item => item = .ofNat (options.get field).toNat
    | none => options.get field = field.default

theorem chooses_positional_iff {items : List Json.Value} {options : Options} :
    Chooses (positional items) options ↔ Fills items options := by
  constructor
  · intro chooses field
    split
    · next item found =>
      exact chooses.given (.index field.position, item)
        (mem_positional.mpr ⟨field.position, found, rfl⟩) field (index_names_iff.mpr rfl)
    · next missing =>
      refine chooses.default field ?_
      rw [mentions_positional, Nat.not_lt]
      exact List.getElem?_eq_none_iff.mp missing
  · intro fills
    refine ⟨fun pair mem field names => ?_, fun field unmentioned => ?_⟩
    · obtain ⟨i, found, key⟩ := mem_positional.mp mem
      rw [key, index_names_iff] at names
      have fill := fills field
      rw [← names, found] at fill
      exact fill
    · rw [mentions_positional, Nat.not_lt] at unmentioned
      have fill := fills field
      rw [List.getElem?_eq_none unmentioned] at fill
      exact fill

theorem ofItems_eq (items : List Json.Value) :
    ofItems items =
      match ofPairs (positional (items.take 2)) with
      | .error e => .error e
      | .ok options =>
        if 2 < items.length then .error (.tooLong items.length) else .ok options := by
  rw [ofItems, ofPairs, positional]
  cases readPairs {} ((items.take 2).zipIdx.map fun (value, i) => (Key.index i, value)) <;> rfl

theorem ofItems_of_firstMisfit {items : List Json.Value} {e : DecodeError}
    (first : FirstMisfit (items.take 2) e) : ofItems items = .error e := by
  have fault := firstFault_positional (List.length_take_le 2 items) first
  rw [ofItems_eq, ofPairs_of_firstFault fault]

theorem ofItems_of_words {items : List Json.Value}
    (words : ∀ item ∈ items.take 2, ∃ n : UInt64, item = .ofNat n.toNat) :
    ∃ options, Fills (items.take 2) options ∧
      ofItems items =
        if 2 < items.length then .error (.tooLong items.length) else .ok options := by
  have formed := wellFormed_positional (List.length_take_le 2 items) words
  obtain ⟨options, read, chooses⟩ := ofPairs_of_wellFormed formed
  exact ⟨options, chooses_positional_iff.mp chooses, by rw [ofItems_eq, read]⟩

theorem Fills.unique {items : List Json.Value} {first second : Options} (h : Fills items first)
    (h' : Fills items second) : first = second :=
  (chooses_positional_iff.mpr h).unique (chooses_positional_iff.mpr h')

/-- Items that fill fields are words, as far as there are fields. -/
theorem Fills.words {items : List Json.Value} {options : Options} (fills : Fills items options)
    (short : items.length ≤ 2) : ∀ item ∈ items, ∃ n : UInt64, item = .ofNat n.toNat := by
  intro item mem
  obtain ⟨i, found⟩ := List.mem_iff_getElem?.mp mem
  obtain ⟨field, rfl⟩ := exists_position
    (Nat.lt_of_lt_of_le (List.getElem?_eq_some_iff.mp found).1 short)
  have fill := fills field
  rw [found] at fill
  exact ⟨options.get field, fill⟩

/-- Just the arrays of two words at most are read, and for what they give to the fields. -/
theorem ofItems_eq_ok_iff {items : List Json.Value} {options : Options} :
    ofItems items = .ok options ↔ items.length ≤ 2 ∧ Fills items options := by
  constructor
  · intro read
    obtain words | ⟨e, first⟩ := words_or_firstMisfit (items.take 2)
    · obtain ⟨chosen, fills, read'⟩ := ofItems_of_words words
      rw [read] at read'
      split at read'
      · cases read'
      · next short =>
        have short : items.length ≤ 2 := Nat.not_lt.mp short
        rw [List.take_of_length_le short] at fills
        rw [Except.ok.inj read']
        exact ⟨short, fills⟩
    · cases read.symm.trans (ofItems_of_firstMisfit first)
  · rintro ⟨short, fills⟩
    have all := List.take_of_length_le short
    obtain ⟨chosen, fills', read⟩ := ofItems_of_words (all.symm ▸ fills.words short)
    rw [read, if_neg (Nat.not_lt.mpr short), fills.unique (all ▸ fills')]

/-- An array is reported for the first bad one of its first two items, and else for its length. -/
theorem ofItems_eq_error_iff {items : List Json.Value} {e : DecodeError} :
    ofItems items = .error e ↔ FirstMisfit (items.take 2) e ∨
      (∀ item ∈ items.take 2, ∃ n : UInt64, item = .ofNat n.toNat) ∧ 2 < items.length ∧
        e = .tooLong items.length := by
  obtain words | ⟨e', first⟩ := words_or_firstMisfit (items.take 2)
  · obtain ⟨chosen, fills, read⟩ := ofItems_of_words words
    constructor
    · intro failed
      rw [read] at failed
      split at failed
      · next long => exact Or.inr ⟨words, long, (Except.error.inj failed).symm⟩
      · cases failed
    · rintro (first | ⟨-, long, rfl⟩)
      · exact ofItems_of_firstMisfit first
      · rw [read, if_pos long]
  · have read := ofItems_of_firstMisfit first
    constructor
    · intro failed
      exact Or.inl (Except.error.inj (read.symm.trans failed) ▸ first)
    · rintro (other | ⟨words, -, -⟩)
      · exact ofItems_of_firstMisfit other
      · obtain ⟨before, item, after, split, -, misfit⟩ := first
        obtain ⟨n, rfl⟩ := words item (split ▸ by simp)
        cases (decodeWord_ofNat .size n).symm.trans misfit.decodeWord

theorem ofJson_object (entries : List (String × Json.Value)) :
    ∃ sorted : List (String × Json.Value),
      sorted.Pairwise (fun first second => Text.bytes first.1 < Text.bytes second.1) ∧
      (∀ key value, (key, value) ∈ sorted ↔
        (Json.Value.object entries).get? key = some value) ∧
      ((entries.map Prod.fst).Nodup → sorted.Perm entries) ∧
      ofJson (.object entries) = ofPairs (sorted.map fun entry => (.name entry.1, entry.2)) := by
  refine ⟨sortedEntries entries, ?_, fun key value => mem_sortedEntries, sortedEntries_perm, rfl⟩
  exact (ascending_sortedEntries entries).imp (Text.lt_iff_bytes_lt _ _).mp

/-- Options are read from just the documents that follow their grammar, and every other document
gets the error of its first fault. Options without a threshold are refused. From all others a
registry is made if the table that they require can be allocated, and the program panics if it
cannot: so being valid is enough for a registry just where the table can be allocated. The default
options require no table. If the entries of the table alone take 2^63 bytes, then the program panics
with every allocator. -/
theorem reading_exact (alloc : Allocator) :
    (∀ pairs options, ofPairs pairs = .ok options ↔ WellFormed pairs ∧ Chooses pairs options) ∧
    (∀ pairs e, ofPairs pairs = .error e ↔ FirstFault pairs e) ∧
    (∀ entries : List (String × Json.Value), ∃ sorted : List (String × Json.Value),
      sorted.Pairwise (fun first second => Text.bytes first.1 < Text.bytes second.1) ∧
      (∀ key value, (key, value) ∈ sorted ↔
        (Json.Value.object entries).get? key = some value) ∧
      ((entries.map Prod.fst).Nodup → sorted.Perm entries) ∧
      ofJson (.object entries) = ofPairs (sorted.map fun entry => (.name entry.1, entry.2))) ∧
    (∀ items options, ofJson (.array items) = .ok options ↔
      items.length ≤ 2 ∧ Fills items options) ∧
    (∀ items e, ofJson (.array items) = .error e ↔ FirstMisfit (items.take 2) e ∨
      (∀ item ∈ items.take 2, ∃ n : UInt64, item = .ofNat n.toNat) ∧ 2 < items.length ∧
        e = .tooLong items.length) ∧
    (∀ value, (∀ entries, value ≠ .object entries) → (∀ items, value ≠ .array items) →
      ofJson value = .error (.invalidType (.ofValue value) .options)) ∧
    (∀ options registry, Registry.withOptions alloc options = some (.ok registry) ↔
      options.sweepThreshold ≠ 0 ∧ alloc.fits options.initialCapacity = true ∧
        registry = .ofOptions options) ∧
    (∀ options fault, Registry.withOptions alloc options = some (.error fault) ↔
      options.sweepThreshold = 0 ∧
        fault = .invalidOption "sweep_threshold" "must be greater than zero") ∧
    (∀ options, Registry.withOptions alloc options = none ↔
      options.validate = .ok () ∧ alloc.fits options.initialCapacity = false) ∧
    (∀ options, (options.validate = .ok () →
        ∃ registry, Registry.withOptions alloc options = some (.ok registry)) ↔
      options.sweepThreshold = 0 ∨ alloc.fits options.initialCapacity = true) ∧
    Registry.withOptions alloc {} = some (.ok (.ofOptions {})) ∧
    (∀ options, options.validate = .ok () → 2 ^ 63 ≤ 32 * options.initialCapacity.toNat →
      Registry.withOptions alloc options = none) := by
  refine ⟨fun _ _ => ofPairs_eq_ok_iff, fun _ _ => ofPairs_eq_error_iff, ofJson_object,
    fun _ _ => ofItems_eq_ok_iff, fun _ _ => ofItems_eq_error_iff, ?_,
    fun _ _ => Registry.withOptions_eq_ok_iff, fun _ _ => Registry.withOptions_eq_error_iff,
    fun _ => Registry.withOptions_eq_none_iff, fun _ => Registry.withOptions_of_valid_iff,
    Registry.withOptions_default alloc,
    fun _ valid large => Registry.withOptions_eq_none valid large alloc⟩
  intro value noObject noArray
  cases value with
  | object entries => exact absurd rfl (noObject entries)
  | array items => exact absurd rfl (noArray items)
  | _ => rfl

/-- A field named twice is reported before its second value, which is no number, and before the
unknown key that follows. -/
theorem reading_exact_duplicate :
    ofPairs [(.index 1, .ofNat 7), (.name "sweep_threshold", .null), (.index 2, .null)] =
      .error (.duplicateField "sweep_threshold") := by
  refine ((reading_exact .beyond).2.1 _ _).mpr
    ⟨[(.index 1, .ofNat 7)], (.name "sweep_threshold", .null), [(.index 2, .null)], rfl, ?_, ?_⟩
  · exact wellFormed_nil.concat (Or.inr rfl) (not_mentions_nil .sweepThreshold) 7
  · have names : (Key.name "sweep_threshold").Names .sweepThreshold := Or.inl rfl
    exact .duplicate names ⟨_, List.mem_singleton.mpr rfl, Or.inr rfl⟩

/-- Options that are read and are valid, and from which no registry can be made. -/
theorem valid_options_overflow :
    ofJson (.object [("initial_capacity", .ofNat 18446744073709551615)]) =
        .ok { initialCapacity := 18446744073709551615 } ∧
      ({ initialCapacity := 18446744073709551615 } : Options).validate = .ok () ∧
      ∀ alloc, Registry.withOptions alloc { initialCapacity := 18446744073709551615 } = none :=
  ⟨by decide +kernel, rfl, Registry.withOptions_eq_none rfl (by decide)⟩

end WeakIdentity.Options
