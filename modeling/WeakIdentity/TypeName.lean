import WeakIdentity.Text.Alphanumeric

/-! Short type names: a full type name without its module paths, also inside brackets. The name is
read once from the left; `::` takes back the word before it, and everything that is neither a word
nor `::` stays and ends the part that can be taken back. -/

namespace WeakIdentity.TypeName

/-- Whether `c` is part of a word. -/
def isWordChar (c : Char) : Bool := Text.isAlphanumeric c || c == '_'

def byteSize : List Char → Nat
  | [] => 0
  | c :: rest => c.utf8Size + byteSize rest

/-- The characters in front of the byte offset `n`; none if `n` falls inside a character or beyond
the text. -/
def takeBytes? : Nat → List Char → Option (List Char)
  | 0, _ => some []
  | _ + 1, [] => none
  | n + 1, c :: cs =>
    if c.utf8Size ≤ n + 1 then (takeBytes? (n + 1 - c.utf8Size) cs).map (c :: ·) else none

/-- The byte offset between two texts divides them again. -/
theorem takeBytes?_append (cs ds : List Char) : takeBytes? (byteSize cs) (cs ++ ds) = some cs := by
  induction cs with
  | nil => simp [byteSize, takeBytes?]
  | cons c rest ih =>
    obtain ⟨n, hn⟩ : ∃ n, c.utf8Size + byteSize rest = n + 1 :=
      ⟨c.utf8Size + byteSize rest - 1, by have := c.utf8Size_pos; omega⟩
    have fits : c.utf8Size ≤ n + 1 := by omega
    have left : n + 1 - c.utf8Size = byteSize rest := by omega
    simp [byteSize, hn, takeBytes?, fits, left, ih]

/-- The output so far, and the byte offset at which its last word starts. -/
structure Draft where
  text : List Char := []
  mark : Nat := 0
  deriving DecidableEq, Repr

namespace Draft

def extend (draft : Draft) (c : Char) : Draft := { draft with text := draft.text ++ [c] }

/-- Adds a character that stays. -/
def settle (draft : Draft) (c : Char) : Draft :=
  let text := draft.text ++ [c]
  { text, mark := byteSize text }

/-- Takes the last word back. -/
def cut (draft : Draft) : Draft :=
  { draft with text := (takeBytes? draft.mark draft.text).getD draft.text }

/-- The draft after reading `cs`. -/
def read (draft : Draft) : List Char → Draft
  | [] => draft
  | c :: rest =>
    if isWordChar c then (draft.extend c).read rest
    else if c = ':' then
      match rest with
      | ':' :: rest => draft.cut.read rest
      | rest => (draft.settle c).read rest
    else (draft.settle c).read rest

end Draft

/-- Whether `::` occurs in `cs`. -/
def hasPath : List Char → Bool
  | ':' :: ':' :: _ => true
  | _ :: rest => hasPath rest
  | [] => false

/-- The name without its module paths; a name without `::` is short already. -/
def shorten (name : String) : String :=
  let cs := name.toList
  if hasPath cs then String.ofList (({} : Draft).read cs).text else name

end WeakIdentity.TypeName
