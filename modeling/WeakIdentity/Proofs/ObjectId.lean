import WeakIdentity.Proofs.Json.RoundTrip
import WeakIdentity.Proofs.Json.Words
import WeakIdentity.Proofs.Ledger.Agreement
import WeakIdentity.Proofs.Location.Text

/-! Ids as others read them: as a number in JSON, as a text, and by their order. Nothing is lost in
either form over the whole range of 64 bits, and the order of ids is the order in which a registry
gave them. -/

namespace WeakIdentity

namespace ObjectId

theorem toNat_inj {a b : ObjectId} : a.value.toNat = b.value.toNat ↔ a = b := by
  obtain ⟨m⟩ := a
  obtain ⟨n⟩ := b
  rw [UInt64.toNat_inj, mk.injEq]

/-! ### JSON -/

theorem text_toJson (id : ObjectId) : id.toJson.text = Nat.repr id.value.toNat := by
  simp [toJson, Json.Value.ofNat, Json.Value.text, Json.Numeral.text, Json.Numeral.text.sign]

/-- Just one value is read as an id, and that is the one by which the id is written. -/
theorem ofJson_eq_ok_iff {value : Json.Value} {id : ObjectId} :
    ofJson value = .ok id ↔ value = id.toJson := by
  rw [toJson, ← @decodeWord_eq_ok_iff .word, ofJson]
  cases decodeWord .word value with
  | error e => simp [Except.map]
  | ok n => simp [Except.map, ← toNat_inj, UInt64.toNat_inj]

theorem parse_toJson (id : ObjectId) : (Json.parse? id.toJson.text).map ofJson = some (.ok id) := by
  rw [Json.parse?_text, Option.map_some, ofJson_eq_ok_iff.mpr rfl]

/-- The values that are read as ids are the integers of 64 bits without a sign. -/
theorem exists_ofJson_iff (value : Json.Value) :
    (∃ id, ofJson value = .ok id) ↔ ∃ n < 2 ^ 64, value = .number (.integer false n) := by
  simp only [ofJson_eq_ok_iff]
  constructor
  · rintro ⟨id, rfl⟩
    exact ⟨id.value.toNat, id.value.toNat_lt, rfl⟩
  · rintro ⟨n, bound, rfl⟩
    refine ⟨⟨.ofNat n⟩, ?_⟩
    rw [toJson, UInt64.toNat_ofNat_of_lt' bound]
    rfl

/-! ### Texts -/

theorem text_inj {a b : ObjectId} : a.text = b.text ↔ a = b := by
  have texts : a.text = b.text ↔ digits a.value = digits b.value := by
    rw [← String.toList_inj]
    simp [text, digits]
  rw [texts, digits_inj, ← UInt64.toNat_inj, toNat_inj]

/-! ### Order -/

theorem compare_eq (a b : ObjectId) :
    a.compare b = Ord.compare a.value.toNat b.value.toNat := by
  simp only [compare, Ord.compare, compareOfLessAndEq, UInt64.lt_iff_toNat_lt, ← UInt64.toNat_inj]

theorem le_iff {a b : ObjectId} : a.le b = true ↔ a.value.toNat ≤ b.value.toNat := by
  simp [le, UInt64.le_iff_toNat_le]

/-- Sorting ids by their order is sorting them by their numbers, so that there is one result. -/
theorem sorted_eq_of_perm {ids ascending : List ObjectId} (perm : ids.Perm ascending)
    (order : ascending.Pairwise fun a b => a.compare b = .lt) : sorted ids = ascending := by
  have total : ∀ a b : ObjectId, (a.le b || b.le a) = true := by
    intro a b
    rw [Bool.or_eq_true, le_iff, le_iff]
    exact Nat.le_total _ _
  have trans : ∀ a b c : ObjectId, a.le b = true → b.le c = true → a.le c = true := by
    intro a b c first second
    rw [le_iff] at first second ⊢
    exact Nat.le_trans first second
  have weak : ascending.Pairwise fun a b => a.le b = true := by
    refine order.imp fun {a b} less => ?_
    rw [compare_eq, Nat.compare_eq_lt] at less
    exact le_iff.mpr (Nat.le_of_lt less)
  refine List.Perm.eq_of_pairwise (fun a b _ _ first second => ?_)
    (List.pairwise_mergeSort trans total ids) weak ((List.mergeSort_perm ids le).trans perm)
  rw [le_iff] at first second
  exact toNat_inj.mp (Nat.le_antisymm first second)

end ObjectId

namespace Scene

variable {history : List CallRecord} {s : Scene}

/-- Ids that a registry gives later are greater, as long as its counter has not run over. -/
theorem Reachable.ascending (h : Reachable history s) {n : Nat}
    (few : (s.world.assigned n).length < 2 ^ 64) :
    (s.world.assigned n).Pairwise fun a b => a.compare b = .lt := by
  rw [h.length_assigned] at few
  rw [h.assigned_eq, List.pairwise_map]
  refine List.pairwise_lt_range.imp_of_mem fun {j k} _ mem less => ?_
  have bound : k < UInt64.size := Nat.lt_trans (List.mem_range.mp mem) few
  rw [ObjectId.compare_eq, ObjectId.nth, ObjectId.nth, UInt64.toNat_ofNat_of_lt' bound,
    UInt64.toNat_ofNat_of_lt' (Nat.lt_trans less bound)]
  exact Nat.compare_eq_lt.mpr less

end Scene

namespace ObjectId

/-- Ids lose nothing on their way to a reader. The JSON text of every id is read as that id. A value
is read as an id just if it is an integer from 0 to 2^64 - 1, written without a point, and the id is
written as that integer again; negative zero is a fraction to a reader. Texts of ids are different
for different ids. The order of ids is that of their numbers, and therefore, for the ids of one
registry, the order in which they were given, which sorting restores. -/
theorem lossless_and_ordered :
    (∀ id : ObjectId, (Json.parse? id.toJson.text).map ofJson = some (.ok id)) ∧
    (∀ value, (∃ id, ofJson value = .ok id) ↔
      ∃ n < 2 ^ 64, value = .number (.integer false n)) ∧
    (∀ value id, ofJson value = .ok id →
      value = .number (.integer false id.value.toNat) ∧
        id.toJson.text = Nat.repr id.value.toNat) ∧
    (∀ a b : ObjectId, a.text = b.text ↔ a = b) ∧
    (∀ a b : ObjectId, a.compare b = Ord.compare a.value.toNat b.value.toNat ∧
      (a.le b = true ↔ a.value.toNat ≤ b.value.toNat)) ∧
    (∀ history s n, Scene.Reachable history s → (s.world.assigned n).length < 2 ^ 64 →
      (s.world.assigned n).Pairwise (fun a b => a.compare b = .lt) ∧
      ∀ ids, ids.Perm (s.world.assigned n) → sorted ids = s.world.assigned n) := by
  refine ⟨parse_toJson, exists_ofJson_iff, fun value id read => ?_, fun a b => text_inj,
    fun a b => ⟨compare_eq a b, le_iff⟩, fun history s n h few => ?_⟩
  · exact ⟨ofJson_eq_ok_iff.mp read, text_toJson id⟩
  · exact ⟨h.ascending few, fun ids perm => sorted_eq_of_perm perm (h.ascending few)⟩

/-- The first integer that a fraction of 64 bits cannot hold, and two ids that sorting brings back
into the order in which the process-wide registry gave them. -/
theorem lossless_and_ordered_beyond :
    (Json.parse? "9007199254740993").map ofJson = some (.ok ⟨9007199254740993⟩) ∧
    ∃ history s, Scene.Reachable history s ∧ s.world.assigned 0 = [⟨0⟩, ⟨1⟩] ∧
      sorted [⟨1⟩, ⟨0⟩] = [⟨0⟩, ⟨1⟩] := by
  obtain ⟨read, -, -, -, -, order⟩ := lossless_and_ordered
  have text : (toJson ⟨9007199254740993⟩).text = "9007199254740993" := by decide +kernel
  obtain ⟨history, s, h, given⟩ : ∃ history s, Scene.Reachable history s ∧
      s.world.assigned 0 = [⟨0⟩, ⟨1⟩] := by
    have held : ∀ (strong : Multiset Object), ∀ o ∈ Content.plain.owned, o ∈ strong := by
      simp [Content.owned]
    have first : Scene.Reachable _ _ :=
      (Scene.Run.refl {}).step (.create .beyond (.aligned 1 0) (held _) (by simp))
    have second := first.step (.create .beyond (.aligned 1 0) (held _) (by simp))
    have newer := second.step (.ask ⟨0, .observe, ⟨1⟩⟩ (Or.inl rfl) (Multiset.mem_cons_self _ _))
    exact ⟨_, _, newer.step (.ask ⟨0, .observe, ⟨0⟩⟩ (Or.inl rfl)
      (Multiset.mem_cons_of_mem (Multiset.mem_cons_self _ _))), by decide +kernel⟩
  have sorts := (order history s 0 h (by rw [given]; decide)).2 [⟨1⟩, ⟨0⟩]
  rw [given] at sorts
  exact ⟨text ▸ read ⟨9007199254740993⟩, history, s, h, given, sorts (List.Perm.swap _ _ _)⟩

end ObjectId

end WeakIdentity
