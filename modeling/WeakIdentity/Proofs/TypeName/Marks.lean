import WeakIdentity.Proofs.TypeName.Tokens

/-! The mark of a draft is counted in bytes while the loop goes through characters. It always lies
between two characters of the draft, with only characters of words behind it, so that a cut there
removes the last word and keeps what is in front of it. -/

namespace WeakIdentity.TypeName

theorem byteSize_eq (cs : List Char) : byteSize cs = (String.ofList cs).utf8ByteSize := by
  induction cs with
  | nil => rfl
  | cons c rest ih =>
    have split : String.ofList (c :: rest) = String.singleton c ++ String.ofList rest := by
      rw [String.singleton_eq_ofList, ← String.ofList_append]
      rfl
    rw [byteSize, ih, split, String.utf8ByteSize_append, String.utf8ByteSize_singleton]

theorem byteSize_append (cs ds : List Char) : byteSize (cs ++ ds) = byteSize cs + byteSize ds := by
  rw [byteSize_eq, String.ofList_append, String.utf8ByteSize_append, ← byteSize_eq, ← byteSize_eq]

theorem isWordChar_of_mem_tokens {cs : List Char} {c : Char} (h : .word c ∈ tokens cs) :
    isWordChar c = true := by
  fun_induction tokens cs with
  | case1 rest ih => exact ih (List.mem_of_ne_of_mem (by simp) h)
  | case2 d rest single ih =>
    rcases List.mem_cons.mp h with here | later
    · rw [Token.ofChar] at here
      split at here
      · next word =>
        rw [Token.word.inj here]
        exact word
      · cases here
    · exact ih later
  | case3 => cases h

namespace Draft

/-- The draft is `settled` up to its mark, and after it `word`, which has only characters of
words. -/
structure Parts (draft : Draft) (settled word : List Char) : Prop extends
    draft.Splits settled word where
  plain : ∀ c ∈ word, isWordChar c = true

variable {draft : Draft} {settled word : List Char}

/-- The mark is between two characters, or at either end. -/
theorem Parts.isValid (h : draft.Parts settled word) :
    String.Pos.Raw.IsValid (String.ofList draft.text) ⟨draft.mark⟩ := by
  refine String.Pos.Raw.isValid_iff_exists_append.mpr
    ⟨String.ofList settled, String.ofList word, ?_, ?_⟩
  · rw [h.text, String.ofList_append]
  · rw [h.mark, byteSize_eq]
    rfl

/-- A cut at the mark keeps what is settled. -/
theorem Parts.takeBytes? (h : draft.Parts settled word) :
    takeBytes? draft.mark draft.text = some settled := by
  rw [h.text, h.mark, takeBytes?_append]

/-- One token adds to what is settled or leaves it, and the draft grows by no more than the
token. -/
theorem Parts.put (h : draft.Parts settled word) {t : Token}
    (genuine : ∀ c, t = .word c → isWordChar c = true) :
    ∃ settled' word', (draft.put t).Parts settled' word' ∧ settled <+: settled' ∧
      byteSize (draft.put t).text ≤ byteSize draft.text + byteSize t.spelling := by
  cases t with
  | path =>
    have cut := h.toSplits.cut
    refine ⟨settled, [], ⟨cut, by simp⟩, List.prefix_rfl, ?_⟩
    rw [Draft.put, cut.text, h.text, List.append_nil, byteSize_append]
    omega
  | word c =>
    refine ⟨settled, word ++ [c], ⟨h.toSplits.extend c, ?_⟩, List.prefix_rfl, ?_⟩
    · intro d mem
      rcases List.mem_append.mp mem with old | new
      · exact h.plain d old
      · rw [List.mem_singleton.mp new]
        exact genuine c rfl
    · rw [Draft.put, extend, byteSize_append]
      exact Nat.le_refl _
  | separator c =>
    refine ⟨settled ++ word ++ [c], [], ⟨h.toSplits.settle c, by simp⟩, ?_, ?_⟩
    · rw [List.append_assoc]
      exact List.prefix_append settled _
    · rw [Draft.put, Draft.settle, byteSize_append]
      exact Nat.le_refl _

/-- The same for all tokens of a text, or of a part of it. -/
theorem Parts.foldl (h : draft.Parts settled word) {ts : List Token}
    (genuine : ∀ c, .word c ∈ ts → isWordChar c = true) :
    ∃ settled' word', (ts.foldl Draft.put draft).Parts settled' word' ∧ settled <+: settled' ∧
      byteSize (ts.foldl Draft.put draft).text ≤
        byteSize draft.text + byteSize (ts.flatMap Token.spelling) := by
  induction ts generalizing draft settled word with
  | nil => exact ⟨settled, word, h, List.prefix_rfl, Nat.le_add_right _ _⟩
  | cons t rest ih =>
    have first : ∀ c, t = .word c → isWordChar c = true := by
      rintro c rfl
      exact genuine c List.mem_cons_self
    obtain ⟨settled', word', next, kept, grown⟩ := h.put first
    obtain ⟨final, last, parts, keeps, grows⟩ :=
      ih next fun c mem => genuine c (List.mem_cons_of_mem t mem)
    refine ⟨final, last, parts, kept.trans keeps, ?_⟩
    rw [List.flatMap_cons, byteSize_append, List.foldl_cons]
    omega

/-- Every stage of the loop has its parts, and has read at least as many bytes as it holds. -/
theorem exists_parts {ts : List Token} (genuine : ∀ c, .word c ∈ ts → isWordChar c = true) :
    ∃ settled word, (ts.foldl Draft.put {}).Parts settled word ∧
      byteSize (ts.foldl Draft.put {}).text ≤ byteSize (ts.flatMap Token.spelling) := by
  have start : ({} : Draft).Parts [] [] := ⟨⟨rfl, rfl⟩, by simp⟩
  obtain ⟨settled, word, parts, -, grown⟩ := start.foldl genuine
  exact ⟨settled, word, parts, by simpa [byteSize] using grown⟩

end Draft

theorem utf8ByteSize_shorten_le (name : String) :
    (shorten name).utf8ByteSize ≤ name.utf8ByteSize := by
  obtain ⟨-, -, -, grown⟩ := Draft.exists_parts fun c (mem : .word c ∈ tokens name.toList) =>
    isWordChar_of_mem_tokens mem
  rw [flatMap_spelling_tokens, ← Draft.read_eq_foldl, Draft.text_read, ← toList_shorten,
    byteSize_eq, byteSize_eq, String.ofList_toList, String.ofList_toList] at grown
  exact grown

/-- The mark is always valid. Whatever part of a name the loop has read, token by token, the mark is
an offset of the text so far, not beyond its end and between two of its characters. Only characters
of words stand behind it, a cut there finds its place, and what stands in front of it is in front of
every later text. The text is never longer than the name. -/
theorem mark_valid (name : String) {before after : List Token} {draft : Draft}
    (read : tokens name.toList = before ++ after) (stage : before.foldl Draft.put {} = draft) :
    after.foldl Draft.put draft = ({} : Draft).read name.toList ∧
    draft.mark ≤ (String.ofList draft.text).utf8ByteSize ∧
    String.Pos.Raw.IsValid (String.ofList draft.text) ⟨draft.mark⟩ ∧
    (∃ settled word, draft.text = settled ++ word ∧
      (String.ofList settled).utf8ByteSize = draft.mark ∧ (∀ c ∈ word, isWordChar c = true) ∧
      takeBytes? draft.mark draft.text = some settled ∧ draft.cut.text = settled ∧
      ∀ between rest, after = between ++ rest →
        settled <+: (between.foldl Draft.put draft).text) ∧
    (String.ofList draft.text).utf8ByteSize ≤ name.utf8ByteSize ∧
    (shorten name).utf8ByteSize ≤ name.utf8ByteSize := by
  have genuine : ∀ c, .word c ∈ before ++ after → isWordChar c = true := fun c mem =>
    isWordChar_of_mem_tokens (read ▸ mem)
  obtain ⟨settled, word, parts, grown⟩ :=
    Draft.exists_parts fun c mem => genuine c (List.mem_append_left after mem)
  rw [stage] at parts grown
  refine ⟨?_, parts.isValid.le_utf8ByteSize, parts.isValid, ⟨settled, word, parts.text, ?_,
    parts.plain, parts.takeBytes?, parts.toSplits.cut.text.trans (List.append_nil _), ?_⟩, ?_,
    utf8ByteSize_shorten_le name⟩
  · rw [Draft.read_eq_foldl, read, List.foldl_append, stage]
  · rw [parts.mark, byteSize_eq]
  · rintro between rest rfl
    obtain ⟨settled', word', later, kept, -⟩ := parts.foldl fun c (mem : .word c ∈ between) =>
      genuine c (List.mem_append_right _ (List.mem_append_left _ mem))
    rw [later.text]
    exact kept.trans (List.prefix_append _ _)
  · have spelled := congrArg byteSize (flatMap_spelling_tokens name.toList)
    rw [read, List.flatMap_append, byteSize_append, byteSize_eq name.toList,
      String.ofList_toList] at spelled
    rw [← byteSize_eq]
    omega

/-- Letters of two, three and four bytes: the loop has read a separator of three bytes and the word
after it, and a path that will take the word back follows. -/
theorem mark_valid_wide :
    ∃ before after draft, tokens "ä→字𝔸::b".toList = before ++ after ∧
      before.foldl Draft.put {} = draft ∧ draft.text = "ä→字𝔸".toList ∧ draft.mark = 5 ∧
      String.Pos.Raw.IsValid (String.ofList draft.text) ⟨draft.mark⟩ ∧
      takeBytes? draft.mark draft.text = some "ä→".toList := by
  have whole : tokens "ä→字𝔸::b".toList =
      [.word 'ä', .separator '→', .word '字', .word '𝔸'] ++ [.path, .word 'b'] := by
    decide +kernel
  obtain ⟨-, -, valid, -⟩ := mark_valid _ whole rfl
  exact ⟨_, _, _, whole, rfl, by decide +kernel, by decide +kernel, valid, by decide +kernel⟩

end WeakIdentity.TypeName
