import WeakIdentity.Location

/-! Texts of locations are unambiguous. The text of an object's location starts with `#` and the
digits of the id, and the character behind the digits says which kind of location it is; the text of
a static field names the field behind the first two colons. So a text can be read back from the
left, as long as the type of a static field has no colon and does not start with `#`. -/

namespace WeakIdentity

/-- Texts that each go on up to a first character without a property agree before it, in it and
behind it. -/
theorem append_cons_eq_iff {p : Char → Bool} {a b x y : List Char} {c d : Char}
    (within : ∀ e ∈ a, p e = true) (within' : ∀ e ∈ b, p e = true) (stop : p c = false)
    (stop' : p d = false) : a ++ c :: x = b ++ d :: y ↔ a = b ∧ c = d ∧ x = y := by
  constructor
  · intro eq
    have front : a = b := by
      simpa [List.takeWhile_append_of_pos within, List.takeWhile_append_of_pos within', stop, stop']
        using congrArg (List.takeWhile p) eq
    subst front
    simpa using eq
  · rintro ⟨rfl, rfl, rfl⟩
    rfl

/-- The decimal digits of a number. -/
def digits (n : UInt64) : List Char := Nat.toDigits 10 n.toNat

theorem digits_inj {m n : UInt64} : digits m = digits n ↔ m = n := by
  constructor
  · intro eq
    have same := congrArg (fun cs => Nat.ofDigitChars 10 cs 0) eq
    simp only [digits, Nat.ofDigitChars_toDigits (by decide : 1 < 10) (by decide)] at same
    exact UInt64.toNat_inj.mp same
  · rintro rfl
    rfl

theorem isDigit_of_mem_digits (n : UInt64) : ∀ c ∈ digits n, c.isDigit = true :=
  fun _ mem => Nat.isDigit_of_mem_toDigits (by decide) (by decide) mem

/-- A number is read back from a text that does not go on with a digit. -/
theorem digits_append_cons_eq_iff {m n : UInt64} {x y : List Char} {c d : Char}
    (stop : c.isDigit = false) (stop' : d.isDigit = false) :
    digits m ++ c :: x = digits n ++ d :: y ↔ m = n ∧ c = d ∧ x = y := by
  rw [append_cons_eq_iff (isDigit_of_mem_digits m) (isDigit_of_mem_digits n) stop stop', digits_inj]

namespace Location

theorem toList_text_field (owner : ObjectId) (name : String) :
    (field owner name).text.toList = '#' :: (digits owner.value ++ '.' :: name.toList) := by
  simp [text, ObjectId.text, digits]

theorem toList_text_element (owner : ObjectId) (index : UInt64) :
    (element owner index).text.toList =
      '#' :: (digits owner.value ++ '[' :: (digits index ++ [']'])) := by
  simp [text, ObjectId.text, digits]

theorem toList_text_static (ownerType name : String) :
    (static ownerType name).text.toList = ownerType.toList ++ ':' :: ':' :: name.toList := by
  simp [text]

/-- A location with a text of its own: the type of a static field has no colon, and does not start
as an id does. -/
def Unambiguous : Location → Prop
  | .field _ _ => True
  | .element _ _ => True
  | .static ownerType _ => ':' ∉ ownerType.toList ∧ ownerType.toList.head? ≠ some '#'

theorem text_field_eq_iff (owner owner' : ObjectId) (name name' : String) :
    (field owner name).text = (field owner' name').text ↔ owner = owner' ∧ name = name' := by
  obtain ⟨value⟩ := owner
  obtain ⟨value'⟩ := owner'
  rw [← String.toList_inj, toList_text_field, toList_text_field, List.cons.injEq,
    digits_append_cons_eq_iff (by decide) (by decide), String.toList_inj]
  simp

theorem text_element_eq_iff (owner owner' : ObjectId) (index index' : UInt64) :
    (element owner index).text = (element owner' index').text ↔
      owner = owner' ∧ index = index' := by
  obtain ⟨value⟩ := owner
  obtain ⟨value'⟩ := owner'
  rw [← String.toList_inj, toList_text_element, toList_text_element, List.cons.injEq,
    digits_append_cons_eq_iff (by decide) (by decide),
    digits_append_cons_eq_iff (by decide) (by decide)]
  simp

/-- The character behind the id distinguishes a field from an element, whatever the field's name. -/
theorem text_field_ne_element (owner owner' : ObjectId) (name : String) (index : UInt64) :
    (field owner name).text ≠ (element owner' index).text := by
  rw [Ne, ← String.toList_inj, toList_text_field, toList_text_element, List.cons.injEq,
    digits_append_cons_eq_iff (by decide) (by decide)]
  rintro ⟨-, -, mark, -⟩
  revert mark
  decide

theorem text_static_eq_iff {ownerType ownerType' : String} (colonless : ':' ∉ ownerType.toList)
    (colonless' : ':' ∉ ownerType'.toList) (name name' : String) :
    (static ownerType name).text = (static ownerType' name').text ↔
      ownerType = ownerType' ∧ name = name' := by
  have within : ∀ {t : String}, ':' ∉ t.toList → ∀ c ∈ t.toList, (c != ':') = true := by
    intro t plain c mem
    exact bne_iff_ne.mpr fun eq => plain (eq ▸ mem)
  rw [← String.toList_inj, toList_text_static, toList_text_static,
    append_cons_eq_iff (p := (· != ':')) (within colonless) (within colonless') (by decide)
      (by decide), String.toList_inj]
  simp [String.toList_inj]

/-- The text of an object's location starts with `#`. -/
theorem head?_text_of_owner {location : Location} {id : ObjectId} (h : location.owner = some id) :
    location.text.toList.head? = some '#' := by
  cases location with
  | field owner name => rw [toList_text_field, List.head?_cons]
  | element owner index => rw [toList_text_element, List.head?_cons]
  | static ownerType name => cases h

theorem head?_text_static {ownerType : String} (h : ownerType.toList.head? ≠ some '#')
    (name : String) : (static ownerType name).text.toList.head? ≠ some '#' := by
  rw [toList_text_static]
  cases eq : ownerType.toList with
  | nil => simp
  | cons c rest => simpa [eq] using h

/-- An object's location and a static field have different texts. -/
theorem text_ne_static {location : Location} {id : ObjectId} (owned : location.owner = some id)
    {ownerType : String} (h : ownerType.toList.head? ≠ some '#') (name : String) :
    location.text ≠ (static ownerType name).text := by
  intro eq
  apply head?_text_static h name
  rw [← eq, head?_text_of_owner owned]

/-- Texts distinguish all fields and elements, and static fields too where the type has no colon and
does not start with `#`. -/
theorem text_unambiguous (a b : Location) (ha : a.Unambiguous) (hb : b.Unambiguous) :
    (a.text = b.text ↔ a = b) ∧
    ∀ (owner owner' : ObjectId) (name : String) (index : UInt64),
      (field owner name).text ≠ (element owner' index).text := by
  refine ⟨?_, text_field_ne_element⟩
  -- Two texts of one kind are read back; two kinds differ in the first character, or behind the id.
  cases a with
  | field owner name =>
    cases b with
    | field owner' name' => rw [text_field_eq_iff, field.injEq]
    | element owner' index =>
      exact iff_of_false (text_field_ne_element owner owner' name index) (by simp)
    | static ownerType name' => exact iff_of_false (text_ne_static rfl hb.2 name') (by simp)
  | element owner index =>
    cases b with
    | field owner' name =>
      exact iff_of_false (text_field_ne_element owner' owner name index).symm (by simp)
    | element owner' index' => rw [text_element_eq_iff, element.injEq]
    | static ownerType name => exact iff_of_false (text_ne_static rfl hb.2 name) (by simp)
  | static ownerType name =>
    cases b with
    | field owner name' => exact iff_of_false (text_ne_static rfl ha.2 name).symm (by simp)
    | element owner index => exact iff_of_false (text_ne_static rfl ha.2 name).symm (by simp)
    | static ownerType' name' => rw [text_static_eq_iff ha.1 hb.1, static.injEq]

/-- A field whose name looks like an element's index, and a static field of a tuple. -/
theorem text_unambiguous_lookalikes :
    (field ⟨3⟩ "[5]").Unambiguous ∧ (static "(Counter, u8)" "x").Unambiguous ∧
    ((field ⟨3⟩ "[5]").text = (static "(Counter, u8)" "x").text ↔
      field ⟨3⟩ "[5]" = static "(Counter, u8)" "x") ∧
    (field ⟨3⟩ "5]").text ≠ (element ⟨3⟩ 5).text := by
  have typed : (static "(Counter, u8)" "x").Unambiguous := ⟨by decide +kernel, by decide +kernel⟩
  obtain ⟨same, marked⟩ :=
    text_unambiguous (field ⟨3⟩ "[5]") (static "(Counter, u8)" "x") trivial typed
  exact ⟨trivial, typed, same, marked _ _ _ _⟩

end Location

end WeakIdentity
