import WeakIdentity.Location
import WeakIdentity.Proofs.Json.RoundTrip
import WeakIdentity.Proofs.Json.Words

/-! The JSON form of a location loses nothing: it can be read back, whatever its names hold. The
reader looks first at the kind, which says what the other entries are. -/

namespace WeakIdentity

/-- The string that a value is. -/
def Json.Value.string? : Json.Value → Option String
  | .string text => some text
  | _ => none

/-- The number of 64 bits that a value is. -/
def Json.Value.word? (value : Json.Value) : Option UInt64 := (decodeWord .word value).toOption

namespace Location

/-- The location that a JSON object describes. -/
def ofJson? (value : Json.Value) : Option Location := do
  let kind ← (← value.get? "kind").string?
  if kind = "field" then
    some (.field ⟨← (← value.get? "owner").word?⟩ (← (← value.get? "field").string?))
  else if kind = "element" then
    some (.element ⟨← (← value.get? "owner").word?⟩ (← (← value.get? "index").word?))
  else if kind = "static" then
    some (.static (← (← value.get? "owner_type").string?) (← (← value.get? "field").string?))
  else none

/-- The location that a JSON text describes. -/
def ofText? (text : String) : Option Location := (Json.parse? text).bind ofJson?

theorem word?_ofNat (n : UInt64) : (Json.Value.ofNat n.toNat).word? = some n := by
  rw [Json.Value.word?, decodeWord_ofNat]
  rfl

theorem ofJson?_toJson (location : Location) : ofJson? location.toJson = some location := by
  cases location with
  | field owner name =>
    simp [ofJson?, toJson, Json.Value.get?, Json.Value.string?, ObjectId.toJson, word?_ofNat]
  | element owner index =>
    simp [ofJson?, toJson, Json.Value.get?, Json.Value.string?, ObjectId.toJson, word?_ofNat]
  | static ownerType name =>
    simp [ofJson?, toJson, Json.Value.get?, Json.Value.string?]

theorem ofText?_json (location : Location) : ofText? location.json = some location := by
  rw [ofText?, json, Json.parse?_text, Option.bind_some, ofJson?_toJson]

/-- The JSON text of a location can be read back, so that different locations have different texts.
It has no character below the space and therefore no line break, whatever the names hold. -/
theorem json_lossless (a b : Location) :
    (a.json = b.json ↔ a = b) ∧ ofText? a.json = some a ∧
      ∀ c ∈ a.json.toList, 0x20 ≤ c.toNat := by
  refine ⟨⟨fun same => ?_, fun same => same ▸ rfl⟩, ofText?_json a, Json.printable_text a.toJson⟩
  have read := ofText?_json a
  rw [same, ofText?_json b] at read
  exact (Option.some.inj read).symm

/-- A name that would close its own string, start another entry and end the line. -/
theorem json_lossless_injection :
    (field ⟨3⟩ "x\",\"field\":\"y\n").json ≠ (field ⟨3⟩ "y\n").json ∧
    ofText? (field ⟨3⟩ "x\",\"field\":\"y\n").json = some (field ⟨3⟩ "x\",\"field\":\"y\n") ∧
    '\n' ∉ (field ⟨3⟩ "x\",\"field\":\"y\n").json.toList := by
  obtain ⟨same, read, printable⟩ :=
    json_lossless (field ⟨3⟩ "x\",\"field\":\"y\n") (field ⟨3⟩ "y\n")
  exact ⟨fun eq => absurd (same.mp eq) (by decide), read, fun line => absurd (printable _ line)
    (by decide)⟩

end Location

end WeakIdentity
