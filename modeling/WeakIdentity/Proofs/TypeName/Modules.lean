import Mathlib.Data.List.DropRight
import WeakIdentity.Labeler
import WeakIdentity.Proofs.TypeName.Tokens

/-! What a module path before a name leaves behind. `::` takes back the word before it and nothing
more, so each segment of the path stays up to its last separator. The whole path is removed just
when all its segments are words: a segment with a combining mark that is not alphanumeric, or
one in braces, shows in the short name. -/

namespace WeakIdentity.TypeName

theorem pathAhead_append_word_path (ts us : List Token) (c : Char) :
    PathAhead (ts ++ .word c :: .path :: us) ↔ PathAhead (ts ++ .path :: us) := by
  induction ts with
  | nil => simp
  | cons t rest ih => cases t <;> simp [ih]

/-- A character of a word just before `::` makes no difference. -/
theorem kept_append_word_path (ts us : List Token) (c : Char) :
    kept (ts ++ .word c :: .path :: us) = kept (ts ++ .path :: us) := by
  induction ts with
  | nil => simp [kept]
  | cons t rest ih => cases t <;> simp [kept, pathAhead_append_word_path, ih]

/-- Of characters before `::` stays what comes up to the last separator. -/
theorem kept_map_append_path (cs : List Char) (us : List Token) :
    kept (cs.map Token.ofChar ++ .path :: us) = cs.rdropWhile isWordChar ++ kept us := by
  -- From the right: word characters go one by one, and a separator stays with all before it.
  induction cs using List.reverseRecOn with
  | nil => rfl
  | append_singleton cs c ih =>
    rw [List.map_append, List.map_singleton, List.append_assoc, List.singleton_append, Token.ofChar]
    split
    · next word =>
      rw [kept_append_word_path, ih, List.rdropWhile_concat_pos _ _ _ word]
    · next sep =>
      rw [kept_append_separator, kept_map_ofChar, kept, List.rdropWhile_concat_neg _ _ _ sep,
        List.append_assoc, List.singleton_append]

/-- A segment of a module path: any text without a colon, so an identifier of whatever script, and
also what stands in braces for a closure. -/
structure Segment where
  text : String
  colonless : ':' ∉ text.toList

namespace Segment

/-- The segment up to its last separator. -/
def remnant (s : Segment) : String := String.ofList (s.text.toList.rdropWhile isWordChar)

def IsWord (s : Segment) : Prop := ∀ c ∈ s.text.toList, isWordChar c = true

theorem remnant_eq_empty_iff (s : Segment) : s.remnant = "" ↔ s.IsWord := by
  rw [remnant, ← String.toList_inj, String.toList_ofList, String.toList_empty,
    List.rdropWhile_eq_nil_iff, IsWord]

theorem shorten_append (s : Segment) (name : String) :
    shorten (s.text ++ "::" ++ name) = s.remnant ++ shorten name := by
  have apart : tokens (s.text.toList ++ ':' :: ':' :: name.toList) =
      s.text.toList.map Token.ofChar ++ .path :: tokens name.toList := by
    have last : s.text.toList.getLast? ≠ some ':' := fun h => s.colonless (List.mem_of_getLast? h)
    rw [tokens_append fun h => absurd h last, tokens_of_notMem s.colonless, tokens]
  rw [← String.toList_inj]
  simp [toList_shorten, apart, kept_map_append_path, remnant]

end Segment

/-- A name with a module path in front. -/
def inModules (modules : List Segment) (name : String) : String :=
  modules.foldr (fun s rest => s.text ++ "::" ++ rest) name

/-- What is left of a module path. -/
def remnants (modules : List Segment) : String := String.join (modules.map Segment.remnant)

theorem remnants_cons (s : Segment) (rest : List Segment) :
    remnants (s :: rest) = s.remnant ++ remnants rest := by
  rw [← String.toList_inj]
  simp [remnants]

theorem remnants_eq_empty_iff (modules : List Segment) :
    remnants modules = "" ↔ ∀ s ∈ modules, s.IsWord := by
  induction modules with
  | nil => simp [remnants]
  | cons s rest ih =>
    simp only [remnants_cons, String.append_eq_empty_iff, s.remnant_eq_empty_iff, ih,
      List.forall_mem_cons]

theorem shorten_inModules (modules : List Segment) (name : String) :
    shorten (inModules modules name) = remnants modules ++ shorten name := by
  induction modules with
  | nil => simp [inModules, remnants]
  | cons s rest ih =>
    calc shorten (inModules (s :: rest) name)
        = s.remnant ++ shorten (inModules rest name) := s.shorten_append (inModules rest name)
      _ = remnants (s :: rest) ++ shorten name := by rw [ih, remnants_cons, String.append_assoc]

/-- A static label names its type with what the module path leaves behind, so it is the label
without the path just when every segment of the path is a word. -/
theorem static_label_in_modules (modules : List Segment) (typeName field : String) :
    Labeler.staticField (inModules modules typeName) field =
      .static (remnants modules ++ shorten typeName) field ∧
    (Labeler.staticField (inModules modules typeName) field = Labeler.staticField typeName field ↔
      ∀ s ∈ modules, s.IsWord) := by
  have stays : remnants modules ++ shorten typeName = shorten typeName ↔ remnants modules = "" := by
    rw [← String.toList_inj, String.toList_append, List.append_left_eq_self,
      String.toList_eq_nil_iff]
  simp only [Labeler.staticField, shorten_inModules, Location.static.injEq, and_true, stays,
    remnants_eq_empty_iff]

/-- An item in a closure, and one in a module whose name has a virama, keep part of their path. -/
theorem static_label_depends_on_modules :
    inModules [⟨"driver", by simp⟩, ⟨"types", by simp⟩, ⟨"locals", by simp⟩,
        ⟨"\x7b\x7bclosure\x7d\x7d", by simp⟩] "InClosure" =
      "driver::types::locals::\x7b\x7bclosure\x7d\x7d::InClosure" ∧
    Labeler.staticField "driver::types::locals::\x7b\x7bclosure\x7d\x7d::InClosure" "" =
      .static "\x7b\x7bclosure\x7d\x7dInClosure" "" ∧
    Labeler.staticField "driver::types::locals::\x7b\x7bclosure\x7d\x7d::InClosure" "" ≠
      Labeler.staticField "InClosure" "" ∧
    inModules [⟨"driver", by simp⟩, ⟨"types", by simp⟩, ⟨"हिन्दी", by simp⟩] "शब्द" =
      "driver::types::हिन्दी::शब्द" ∧
    Labeler.staticField "driver::types::हिन्दी::शब्द" "x" = .static "हिन्शब्द" "x" ∧
    Labeler.staticField "driver::types::हिन्दी::शब्द" "x" ≠ Labeler.staticField "शब्द" "x" := by
  decide +kernel

end WeakIdentity.TypeName
