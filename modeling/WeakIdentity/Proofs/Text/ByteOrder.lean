/-! The order of texts by characters is the order of their bytes in UTF-8: a greater character has a
greater byte in the first place where the two encodings differ. -/

namespace WeakIdentity.Text

/-- The bytes of a text in UTF-8. -/
def bytes (text : String) : List UInt8 := text.toUTF8.data.toList

theorem bytes_eq_flatMap (text : String) :
    bytes text = text.toList.flatMap String.utf8EncodeChar := by
  have encoded : text.toUTF8 = (text.toList.flatMap String.utf8EncodeChar).toByteArray := by
    rw [← List.utf8Encode.eq_1, ← String.toByteArray_ofList, String.ofList_toList]
    rfl
  rw [bytes, encoded]
  simp

/-- A character has one to four bytes, the more the greater it is. -/
theorem utf8EncodeChar_cases (c : Char) :
    (c.toNat < 0x80 ∧ String.utf8EncodeChar c = [.ofNat c.toNat]) ∨
    (0x80 ≤ c.toNat ∧ c.toNat < 0x800 ∧
      String.utf8EncodeChar c =
        [.ofNat (c.toNat / 64 % 32 + 192), .ofNat (c.toNat % 64 + 128)]) ∨
    (0x800 ≤ c.toNat ∧ c.toNat < 0x10000 ∧
      String.utf8EncodeChar c =
        [.ofNat (c.toNat / 4096 % 16 + 224), .ofNat (c.toNat / 64 % 64 + 128),
          .ofNat (c.toNat % 64 + 128)]) ∨
    (0x10000 ≤ c.toNat ∧ c.toNat < 0x110000 ∧
      String.utf8EncodeChar c =
        [.ofNat (c.toNat / 262144 % 8 + 240), .ofNat (c.toNat / 4096 % 64 + 128),
          .ofNat (c.toNat / 64 % 64 + 128), .ofNat (c.toNat % 64 + 128)]) := by
  have bound : c.toNat < 0x110000 := by
    have valid : c.toNat.isValidChar := c.valid
    simp only [Nat.isValidChar] at valid
    omega
  have encoded : String.utf8EncodeChar c =
      if c.toNat ≤ 0x7f then [.ofNat c.toNat]
      else if c.toNat ≤ 0x7ff then [.ofNat (c.toNat / 64 % 32 + 192), .ofNat (c.toNat % 64 + 128)]
      else if c.toNat ≤ 0xffff then
        [.ofNat (c.toNat / 4096 % 16 + 224), .ofNat (c.toNat / 64 % 64 + 128),
          .ofNat (c.toNat % 64 + 128)]
      else
        [.ofNat (c.toNat / 262144 % 8 + 240), .ofNat (c.toNat / 4096 % 64 + 128),
          .ofNat (c.toNat / 64 % 64 + 128), .ofNat (c.toNat % 64 + 128)] := rfl
  rw [encoded]
  split
  · exact Or.inl ⟨by omega, rfl⟩
  · split
    · exact Or.inr (Or.inl ⟨by omega, by omega, rfl⟩)
    · split
      · exact Or.inr (Or.inr (Or.inl ⟨by omega, by omega, rfl⟩))
      · exact Or.inr (Or.inr (Or.inr ⟨by omega, bound, rfl⟩))

/-- The encodings of two characters differ before either of them ends: of two with different lengths
in the first byte, and else in the first place where the digits in base 64 do. -/
theorem utf8EncodeChar_append_lt {c d : Char} (less : c.toNat < d.toNat)
    (first second : List UInt8) :
    String.utf8EncodeChar c ++ first < String.utf8EncodeChar d ++ second := by
  rcases utf8EncodeChar_cases c with
    ⟨high, encoded⟩ | ⟨low, high, encoded⟩ | ⟨low, high, encoded⟩ | ⟨low, high, encoded⟩ <;>
  rcases utf8EncodeChar_cases d with
    ⟨high', encoded'⟩ | ⟨low', high', encoded'⟩ | ⟨low', high', encoded'⟩ |
      ⟨low', high', encoded'⟩ <;>
  rw [encoded, encoded'] <;>
  simp only [List.cons_append, List.nil_append, List.cons_lt_cons_iff, UInt8.lt_iff_toNat_lt,
    ← UInt8.toNat_inj, UInt8.toNat_ofNat'] <;>
  simp (disch := omega) only [Nat.mod_eq_of_lt] <;>
  omega

theorem append_lt_append_iff (front first second : List UInt8) :
    front ++ first < front ++ second ↔ first < second := by
  induction front with
  | nil => rfl
  | cons byte rest ih => simp [ih]

theorem flatMap_utf8EncodeChar_lt_iff (cs ds : List Char) :
    cs.flatMap String.utf8EncodeChar < ds.flatMap String.utf8EncodeChar ↔ cs < ds := by
  induction cs generalizing ds with
  | nil =>
    cases ds with
    | nil => simp
    | cons d rest =>
      have some : String.utf8EncodeChar d ++ rest.flatMap String.utf8EncodeChar ≠ [] := by
        simp [String.utf8EncodeChar_ne_nil]
      obtain ⟨byte, more, eq⟩ := List.exists_cons_of_ne_nil some
      simp [eq]
  | cons c more ih =>
    cases ds with
    | nil => simp
    | cons d rest =>
      rw [List.flatMap_cons, List.flatMap_cons, List.cons_lt_cons_iff, Char.lt_def,
        UInt32.lt_iff_toNat_lt]
      rcases Nat.lt_trichotomy c.toNat d.toNat with less | same | greater
      · exact iff_of_true (utf8EncodeChar_append_lt less _ _) (Or.inl less)
      · obtain rfl := Char.toNat_inj.mp same
        rw [append_lt_append_iff, ih]
        simp
      · refine iff_of_false (List.lt_asymm (utf8EncodeChar_append_lt greater _ _)) ?_
        rintro (less | ⟨rfl, -⟩)
        · exact Nat.lt_asymm less greater
        · exact Nat.lt_irrefl _ greater

/-- Texts are ordered as their bytes are. -/
theorem lt_iff_bytes_lt (first second : String) : first < second ↔ bytes first < bytes second := by
  rw [bytes_eq_flatMap, bytes_eq_flatMap, flatMap_utf8EncodeChar_lt_iff]
  rfl

end WeakIdentity.Text
