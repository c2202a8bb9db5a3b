import WeakIdentity.TypeName

/-! What stays of a name. A name is read from the left into tokens: `::`, the characters of words,
and separators. Its short form keeps every separator, and every character of a word that has no `::`
between it and the next separator. So a separator other than a colon divides a name into two that
are shortened apart. -/

namespace WeakIdentity.TypeName

inductive Token where
  /-- Two colons. -/
  | path
  | word (c : Char)
  | separator (c : Char)
  deriving DecidableEq, Repr

namespace Token

/-- The token of a character that stands alone. -/
def ofChar (c : Char) : Token := if isWordChar c then .word c else .separator c

def isSeparator : Token → Bool
  | .separator _ => true
  | _ => false

/-- The characters that a token is read from. -/
def spelling : Token → List Char
  | .path => [':', ':']
  | .word c => [c]
  | .separator c => [c]

theorem spelling_ofChar (c : Char) : (ofChar c).spelling = [c] := by
  unfold ofChar
  split <;> rfl

end Token

/-- The tokens of a text. Of several colons in a row the first two make a token, then the next
two. -/
def tokens : List Char → List Token
  | ':' :: ':' :: rest => .path :: tokens rest
  | c :: rest => .ofChar c :: tokens rest
  | [] => []

theorem tokens_cons {c : Char} {rest : List Char} (h : c = ':' → rest.head? ≠ some ':') :
    tokens (c :: rest) = .ofChar c :: tokens rest := by
  rw [tokens]
  rintro next rfl rfl
  exact h rfl rfl

/-- Nothing of the text is lost in its tokens. -/
theorem flatMap_spelling_tokens (cs : List Char) : (tokens cs).flatMap Token.spelling = cs := by
  fun_induction tokens cs with
  | case1 rest ih => simp [Token.spelling, ih]
  | case2 c rest _ ih => simp [Token.spelling_ofChar, ih]
  | case3 => rfl

/-- Texts are read apart unless a colon on either side meets one on the other. -/
theorem tokens_append {a b : List Char} (h : a.getLast? = some ':' → b.head? ≠ some ':') :
    tokens (a ++ b) = tokens a ++ tokens b := by
  fun_induction tokens a with
  | case1 rest ih =>
    have behind : rest.getLast? = some ':' → b.head? ≠ some ':' := by
      intro last
      apply h
      simp [List.getLast?_cons, last]
    rw [List.cons_append, List.cons_append, tokens, ih behind, List.cons_append]
  | case2 c rest single ih =>
    have behind : rest.getLast? = some ':' → b.head? ≠ some ':' := by
      intro last
      apply h
      simp [List.getLast?_cons, last]
    -- A colon that is alone in `a` can meet another one only where `a` ends.
    have alone : c = ':' → (rest ++ b).head? ≠ some ':' := by
      rintro rfl
      cases rest with
      | nil => exact h rfl
      | cons d rest =>
        rintro ⟨⟩
        exact single rest rfl rfl
    rw [List.cons_append, tokens_cons alone, ih behind, List.cons_append]
  | case3 => rfl

theorem hasPath_iff (cs : List Char) : hasPath cs = true ↔ [':', ':'] <:+: cs := by
  fun_induction hasPath cs with
  | case1 rest => simpa using (List.prefix_append [':', ':'] rest).isInfix
  | case2 c rest single ih =>
    rw [ih, List.infix_cons_iff]
    refine ⟨.inr, fun found => found.resolve_left ?_⟩
    rintro ⟨tail, eq⟩
    obtain ⟨rfl, rfl⟩ := List.cons.inj eq
    exact single tail rfl rfl
  | case3 => simp

/-- Without `::` every character is a token of its own. -/
theorem tokens_of_not_hasPath {cs : List Char} (h : hasPath cs = false) :
    tokens cs = cs.map Token.ofChar := by
  fun_induction hasPath cs with
  | case1 rest => cases h
  | case2 c rest single ih =>
    have alone : c = ':' → rest.head? ≠ some ':' := by
      rintro rfl head
      obtain ⟨tail, rfl⟩ := List.head?_eq_some_iff.mp head
      exact single tail rfl rfl
    rw [tokens_cons alone, ih h, List.map_cons]
  | case3 => rfl

theorem tokens_of_notMem {cs : List Char} (h : ':' ∉ cs) : tokens cs = cs.map Token.ofChar := by
  apply tokens_of_not_hasPath
  rw [← Bool.not_eq_true, hasPath_iff]
  exact fun found => h (found.subset (by simp))

/-- Whether `::` comes before the next separator, or before the end if there is none. -/
def PathAhead (ts : List Token) : Prop := .path ∈ ts.takeWhile fun t => !t.isSeparator

instance : DecidablePred PathAhead := fun _ => inferInstanceAs (Decidable (_ ∈ _))

@[simp] theorem not_pathAhead_nil : ¬PathAhead [] := by simp [PathAhead]

@[simp] theorem pathAhead_path (ts : List Token) : PathAhead (.path :: ts) := by
  simp [PathAhead, Token.isSeparator]

@[simp] theorem pathAhead_word (c : Char) (ts : List Token) :
    PathAhead (.word c :: ts) ↔ PathAhead ts := by
  simp [PathAhead, Token.isSeparator]

@[simp] theorem not_pathAhead_separator (c : Char) (ts : List Token) :
    ¬PathAhead (.separator c :: ts) := by
  simp [PathAhead, Token.isSeparator]

/-- The characters that stay: every separator, and the characters of words with no `::` ahead. -/
def kept : List Token → List Char
  | [] => []
  | .path :: rest => kept rest
  | .word c :: rest => if PathAhead rest then kept rest else c :: kept rest
  | .separator c :: rest => c :: kept rest

theorem pathAhead_append_separator (ts us : List Token) (c : Char) :
    PathAhead (ts ++ .separator c :: us) ↔ PathAhead ts := by
  induction ts with
  | nil => simp
  | cons t rest ih => cases t <;> simp [ih]

theorem kept_append_separator (ts us : List Token) (c : Char) :
    kept (ts ++ .separator c :: us) = kept ts ++ c :: kept us := by
  induction ts with
  | nil => rfl
  | cons t rest ih =>
    cases t with
    | path => exact ih
    | word d =>
      simp only [List.cons_append, kept, pathAhead_append_separator, ih]
      split <;> rfl
    | separator d => simp [kept, ih]

theorem not_pathAhead_map_ofChar (cs : List Char) : ¬PathAhead (cs.map Token.ofChar) := by
  induction cs with
  | nil => simp
  | cons c rest ih =>
    rw [List.map_cons, Token.ofChar]
    split <;> simp [ih]

theorem kept_map_ofChar (cs : List Char) : kept (cs.map Token.ofChar) = cs := by
  induction cs with
  | nil => rfl
  | cons c rest ih =>
    rw [List.map_cons, Token.ofChar]
    split
    · rw [kept, if_neg (not_pathAhead_map_ofChar rest), ih]
    · rw [kept, ih]

namespace Draft

/-- The draft after one more token. -/
def put (draft : Draft) : Token → Draft
  | .path => draft.cut
  | .word c => draft.extend c
  | .separator c => draft.settle c

theorem read_eq_foldl (draft : Draft) (cs : List Char) :
    draft.read cs = (tokens cs).foldl put draft := by
  have colon : isWordChar ':' = false := by decide
  fun_induction read draft cs with
  | case1 draft => rfl
  | case2 draft c rest word ih =>
    have ne : c ≠ ':' := by
      rintro rfl
      simp [colon] at word
    rw [ih, tokens_cons fun eq => absurd eq ne, Token.ofChar, if_pos word]
    rfl
  | case3 draft rest plain ih =>
    rw [ih]
    rfl
  | case4 draft rest single plain ih =>
    have alone : rest.head? ≠ some ':' := by
      intro head
      obtain ⟨tail, rfl⟩ := List.head?_eq_some_iff.mp head
      exact single tail rfl
    rw [ih, tokens_cons fun _ => alone, Token.ofChar, if_neg (by simp [colon])]
    rfl
  | case5 draft c rest plain ne ih =>
    rw [ih, tokens_cons fun eq => absurd eq ne, Token.ofChar, if_neg plain]
    rfl

/-- The draft is `settled`, which stays whatever comes, and after it `word`, which the next `::`
takes back. -/
structure Splits (draft : Draft) (settled word : List Char) : Prop where
  text : draft.text = settled ++ word
  mark : draft.mark = byteSize settled

variable {draft : Draft} {settled word : List Char}

theorem Splits.extend (h : draft.Splits settled word) (c : Char) :
    (draft.extend c).Splits settled (word ++ [c]) :=
  ⟨by simp [Draft.extend, h.text], h.mark⟩

theorem Splits.settle (h : draft.Splits settled word) (c : Char) :
    (draft.settle c).Splits (settled ++ word ++ [c]) [] :=
  ⟨by simp [Draft.settle, h.text], by simp [Draft.settle, h.text]⟩

theorem Splits.cut (h : draft.Splits settled word) : draft.cut.Splits settled [] := by
  refine ⟨?_, h.mark⟩
  rw [Draft.cut, h.text, h.mark, takeBytes?_append]
  simp

/-- What the loop makes of tokens: the word at the end of the draft goes if `::` is ahead, and of
the tokens stays what is kept. -/
theorem Splits.text_foldl (h : draft.Splits settled word) (ts : List Token) :
    (ts.foldl put draft).text = settled ++ (if PathAhead ts then [] else word) ++ kept ts := by
  -- What is settled and what can be taken back both grow along the way.
  induction ts generalizing draft settled word with
  | nil => simp [h.text, kept]
  | cons t rest ih =>
    cases t with
    | path =>
      rw [List.foldl_cons, put, ih h.cut]
      simp [kept]
    | word c =>
      rw [List.foldl_cons, put, ih (h.extend c)]
      by_cases ahead : PathAhead rest <;> simp [kept, ahead]
    | separator c =>
      rw [List.foldl_cons, put, ih (h.settle c)]
      simp [kept]

theorem text_read (cs : List Char) : (({} : Draft).read cs).text = kept (tokens cs) := by
  have start : ({} : Draft).Splits [] [] := ⟨rfl, rfl⟩
  rw [read_eq_foldl, start.text_foldl]
  simp

end Draft

/-- The short form of a name, stated without the loop. -/
theorem toList_shorten (name : String) : (shorten name).toList = kept (tokens name.toList) := by
  simp only [shorten]
  split
  · rw [String.toList_ofList, Draft.text_read]
  · next none =>
    rw [tokens_of_not_hasPath (by simpa using none), kept_map_ofChar]

theorem shorten_of_notMem {name : String} (h : ':' ∉ name.toList) : shorten name = name := by
  rw [← String.toList_inj, toList_shorten, tokens_of_notMem h, kept_map_ofChar]

/-- A separator other than a colon divides a name. -/
theorem shorten_push_append (a b : String) {c : Char} (sep : isWordChar c = false) (ne : c ≠ ':') :
    shorten (a.push c ++ b) = (shorten a).push c ++ shorten b := by
  have apart : tokens (a.toList ++ c :: b.toList) =
      tokens a.toList ++ .separator c :: tokens b.toList := by
    rw [tokens_append (by simp [ne]), tokens_cons fun eq => absurd eq ne, Token.ofChar,
      if_neg (by simp [sep])]
  rw [← String.toList_inj]
  simp [toList_shorten, apart, kept_append_separator]

/-- The loop and the early return have one meaning: a name is read into tokens that lose nothing of
it, every separator stays, and of the words the characters that no `::` follows before the next
separator. -/
theorem shorten_keeps (name : String) :
    (tokens name.toList).flatMap Token.spelling = name.toList ∧
    (shorten name).toList = kept (tokens name.toList) ∧
    (({} : Draft).read name.toList).text = (shorten name).toList ∧
    (¬[':', ':'] <:+: name.toList → (({} : Draft).read name.toList).text = name.toList) ∧
    ∀ (a b : String) (c : Char), isWordChar c = false → c ≠ ':' →
      shorten (a.push c ++ b) = (shorten a).push c ++ shorten b := by
  refine ⟨flatMap_spelling_tokens _, toList_shorten name, ?_, fun none => ?_,
    fun a b c sep ne => shorten_push_append a b sep ne⟩
  · rw [Draft.text_read, toList_shorten]
  · have early : hasPath name.toList = false := by simpa [← hasPath_iff] using none
    rw [Draft.text_read, tokens_of_not_hasPath early, kept_map_ofChar]

/-- Three colons in a row, a letter of two bytes, a single colon, and an angle bracket between. -/
theorem shorten_keeps_colons :
    shorten "a:::b::ç<d::e:f>" = ":ç<e:f>" ∧
    kept (tokens "a:::b::ç<d::e:f>".toList) = ":ç<e:f>".toList ∧
    isWordChar '<' = false ∧
    shorten ("a:::b::ç".push '<' ++ "d::e:f>") =
      (shorten "a:::b::ç").push '<' ++ shorten "d::e:f>" := by
  have short : shorten "a:::b::ç<d::e:f>" = ":ç<e:f>" := by decide +kernel
  obtain ⟨-, kept, -, -, divided⟩ := shorten_keeps "a:::b::ç<d::e:f>"
  rw [short] at kept
  exact ⟨short, kept.symm, by decide, divided _ _ '<' (by decide) (by decide)⟩

end WeakIdentity.TypeName
