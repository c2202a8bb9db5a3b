import WeakIdentity.Proofs.TypeName.Modules

/-! Type expressions, and the names that are written for them: paths with arguments behind the last
segment, tuples, slices, arrays, references and raw pointers, bounds of `dyn`, function pointers.
The short name of an expression is the name of the same expression with every path cut down to its
last segment. -/

namespace WeakIdentity.TypeName

/-- A segment of word characters. -/
structure Word where
  text : String
  nonempty : text ≠ ""
  plain : text.toList.all isWordChar = true

theorem Word.colonless (w : Word) : ':' ∉ w.text.toList := by
  intro mem
  have word := List.all_eq_true.mp w.plain ':' mem
  revert word
  decide

def Word.segment (w : Word) : Segment := ⟨w.text, w.colonless⟩

/-- A path, `core::option::Option`. -/
structure Path where
  modules : List Word
  name : Word

namespace Path

def text (path : Path) : String := inModules (path.modules.map Word.segment) path.name.text

/-- The last segment of a path alone. -/
def short (path : Path) : Path := { path with modules := [] }

end Path

/-- What marks a reference or a raw pointer. -/
inductive Sigil where
  | reference
  /-- A reference with its lifetime, `&'a`. -/
  | borrowed (lifetime : Word)
  | raw

def Sigil.text : Sigil → String
  | .reference => "&"
  | .borrowed lifetime => "&'" ++ lifetime.text ++ " "
  | .raw => "*"

inductive Access where
  | unmarked
  | const
  | mut

def Access.text : Access → String
  | .unmarked => ""
  | .const => "const "
  | .mut => "mut "

/-- What stands before `fn`. -/
structure Linkage where
  isUnsafe : Bool
  /-- The calling convention, `extern "C"`. -/
  convention : Option Word

def Linkage.text (linkage : Linkage) : String :=
  (if linkage.isUnsafe then "unsafe " else "") ++
    match linkage.convention with
    | none => ""
    | some name => "extern \"" ++ name.text ++ "\" "

mutual

inductive TypeExpr where
  | named (name : Named)
  | tuple (items : List TypeExpr)
  | slice (item : TypeExpr)
  | array (item : TypeExpr) (length : Nat)
  | pointer (sigil : Sigil) (access : Access) (target : TypeExpr)
  /-- `dyn`, with one bound or more. -/
  | dyn (first : Named) (others : List Named)
  | function (linkage : Linkage) (signature : Signature)

/-- A path with what stands behind its last segment. -/
inductive Named where
  | generic (path : Path) (args : List Arg)
  /-- A path with a signature, `core::ops::function::Fn(u8) -> bool`. -/
  | callable (path : Path) (signature : Signature)

/-- An argument between angle brackets. -/
inductive Arg where
  | type (type : TypeExpr)
  /-- The binding of an associated type, `Item = u8`. -/
  | binding (name : Word) (type : TypeExpr)
  | lifetime (name : Word)
  | number (value : Int)

/-- The types that a function takes, and the one it gives back if it is written. -/
inductive Signature where
  | procedure (params : List TypeExpr)
  | function (params : List TypeExpr) (result : TypeExpr)

end

/-- Items of a tuple in brackets; a single one is followed by a comma. -/
def inRound : List String → String
  | [] => "()"
  | [item] => "(" ++ item ++ ",)"
  | items => "(" ++ String.intercalate ", " items ++ ")"

/-- Arguments in angle brackets, if there are any. -/
def inAngles : List String → String
  | [] => ""
  | args => "<" ++ String.intercalate ", " args ++ ">"

mutual

/-- The full name of a type. -/
def TypeExpr.text : TypeExpr → String
  | .named name => name.text
  | .tuple items => inRound (items.map TypeExpr.text)
  | .slice item => "[" ++ item.text ++ "]"
  | .array item length => "[" ++ item.text ++ "; " ++ Nat.repr length ++ "]"
  | .pointer sigil access target => sigil.text ++ access.text ++ target.text
  | .dyn first others => "dyn " ++ String.intercalate " + " (first.text :: others.map Named.text)
  | .function linkage signature => linkage.text ++ "fn" ++ signature.text
termination_by t => sizeOf t

def Named.text : Named → String
  | .generic path args => path.text ++ inAngles (args.map Arg.text)
  | .callable path signature => path.text ++ signature.text
termination_by t => sizeOf t

def Arg.text : Arg → String
  | .type type => type.text
  | .binding name type => name.text ++ " = " ++ type.text
  | .lifetime name => "'" ++ name.text
  | .number value => Int.repr value
termination_by t => sizeOf t

def Signature.text : Signature → String
  | .procedure params => "(" ++ String.intercalate ", " (params.map TypeExpr.text) ++ ")"
  | .function params result =>
    "(" ++ String.intercalate ", " (params.map TypeExpr.text) ++ ") -> " ++ result.text
termination_by t => sizeOf t

end

mutual

/-- The expression with every path cut down to its last segment. -/
def TypeExpr.short : TypeExpr → TypeExpr
  | .named name => .named name.short
  | .tuple items => .tuple (items.map TypeExpr.short)
  | .slice item => .slice item.short
  | .array item length => .array item.short length
  | .pointer sigil access target => .pointer sigil access target.short
  | .dyn first others => .dyn first.short (others.map Named.short)
  | .function linkage signature => .function linkage signature.short
termination_by t => sizeOf t

def Named.short : Named → Named
  | .generic path args => .generic path.short (args.map Arg.short)
  | .callable path signature => .callable path.short signature.short
termination_by t => sizeOf t

def Arg.short : Arg → Arg
  | .type type => .type type.short
  | .binding name type => .binding name type.short
  | .lifetime name => .lifetime name
  | .number value => .number value
termination_by t => sizeOf t

def Signature.short : Signature → Signature
  | .procedure params => .procedure (params.map TypeExpr.short)
  | .function params result => .function (params.map TypeExpr.short) result.short
termination_by t => sizeOf t

end

/-! ### Texts between names -/

/-- `d` stays, and the texts on its two sides are shortened apart. -/
def Divides (d : String) : Prop := ∀ a b, shorten (a ++ d ++ b) = shorten a ++ d ++ shorten b

/-- `p` stays at the start of a name, and the text behind it is shortened apart. -/
def Leads (p : String) : Prop := ∀ b, shorten (p ++ b) = p ++ shorten b

@[simp] theorem shorten_empty : shorten "" = "" := shorten_of_notMem (by simp)

/-- Whether a text has no colon and does not end within a word. -/
def isLead (p : String) : Bool :=
  !p.toList.contains ':' && p.toList.getLast?.all fun c => !isWordChar c

theorem isLead_iff (p : String) : isLead p = true ↔
    ':' ∉ p.toList ∧ ∀ c, p.toList.getLast? = some c → isWordChar c = false := by
  simp [isLead, Option.all_eq_true]

theorem leads_of_isLead {p : String} (h : isLead p = true) : Leads p := by
  obtain ⟨colonless, ends⟩ := (isLead_iff p).mp h
  intro b
  rcases List.eq_nil_or_concat p.toList with empty | ⟨cs, c, eq⟩
  · rw [String.toList_eq_nil_iff.mp empty]
    simp
  · obtain rfl : p = (String.ofList cs).push c := by simp [← String.toList_inj, eq]
    have sep : isWordChar c = false := ends c (by simp)
    obtain ⟨plain, ne⟩ : ':' ∉ cs ∧ ':' ≠ c := by simpa using colonless
    rw [shorten_push_append _ b sep ne.symm, shorten_of_notMem (by simpa using plain)]

theorem Leads.append {p q : String} (first : Leads p) (second : Leads q) : Leads (p ++ q) := by
  intro b
  rw [String.append_assoc, first, second, String.append_assoc]

/-- Whether a text consists of separators other than colons. -/
def isDivider (d : String) : Bool :=
  !d.toList.isEmpty && d.toList.all fun c => !isWordChar c && c != ':'

theorem divides (d : String) (h : isDivider d = true := by decide +kernel) : Divides d := by
  obtain ⟨nonempty, seps⟩ : d.toList ≠ [] ∧ ∀ c ∈ d.toList, isWordChar c = false ∧ c ≠ ':' := by
    simpa [isDivider] using h
  intro a b
  obtain ⟨c, cs, eq⟩ := List.exists_cons_of_ne_nil nonempty
  rw [eq, List.forall_mem_cons] at seps
  obtain ⟨⟨sep, ne⟩, rest⟩ := seps
  have lead : Leads (String.ofList cs) := by
    rw [← String.toList_ofList (l := cs)] at rest
    refine leads_of_isLead ((isLead_iff _).mpr ⟨?_, ?_⟩)
    · exact fun mem => (rest ':' mem).2 rfl
    · exact fun e last => (rest e (List.mem_of_getLast? last)).1
  have split : ∀ x : String, x ++ d = x.push c ++ String.ofList cs := by
    simp [← String.toList_inj, eq]
  rw [split, String.append_assoc, shorten_push_append a _ sep ne, lead, split, String.append_assoc]

theorem Divides.leads {d : String} (h : Divides d) : Leads d := by
  intro b
  simpa using h "" b

theorem Divides.shorten_append {d : String} (h : Divides d) (a : String) :
    shorten (a ++ d) = shorten a ++ d := by
  simpa using h a ""

theorem Divides.shorten_intercalate {d : String} (h : Divides d) (ts : List String) :
    shorten (d.intercalate ts) = d.intercalate (ts.map shorten) := by
  induction ts with
  | nil => simp
  | cons t rest ih =>
    cases rest with
    | nil => simp
    | cons u rest =>
      rw [String.intercalate_cons_cons, h, ih]
      simp

theorem shorten_inRound (items : List String) :
    shorten (inRound items) = inRound (items.map shorten) := by
  have last := divides ",)"
  match items with
  | [] => exact shorten_of_notMem (by decide +kernel)
  | [item] => simp only [inRound, List.map, last.shorten_append, (divides "(").leads _]
  | first :: second :: rest =>
    simp only [inRound, List.map_cons, (divides ")").shorten_append, (divides "(").leads _,
      (divides ", ").shorten_intercalate]

theorem shorten_append_inAngles (a : String) (args : List String) :
    shorten (a ++ inAngles args) = shorten a ++ inAngles (args.map shorten) := by
  have opening := divides "<"
  have closing := divides ">"
  cases args with
  | nil => simp [inAngles]
  | cons first rest =>
    simp only [inAngles, List.map_cons, ← String.append_assoc, closing.shorten_append, opening _ _,
      (divides ", ").shorten_intercalate]

theorem Path.shorten_text (path : Path) : shorten path.text = path.short.text := by
  have words : remnants (path.modules.map Word.segment) = "" := by
    rw [remnants_eq_empty_iff]
    intro s mem
    obtain ⟨w, -, rfl⟩ := List.mem_map.mp mem
    exact List.all_eq_true.mp w.plain
  rw [text, shorten_inModules, words, shorten_of_notMem path.name.colonless, String.empty_append]
  rfl

theorem Sigil.leads (sigil : Sigil) : Leads sigil.text := by
  have space : isWordChar ' ' = false := by decide
  cases sigil with
  | reference => exact leads_of_isLead (by decide +kernel)
  | borrowed lifetime =>
    exact leads_of_isLead (by simp [isLead, text, lifetime.colonless, List.getLast?_cons, space])
  | raw => exact leads_of_isLead (by decide +kernel)

theorem Access.leads (access : Access) : Leads access.text := by
  cases access <;> exact leads_of_isLead (by decide +kernel)

theorem Linkage.colonless (linkage : Linkage) : ':' ∉ linkage.text.toList := by
  obtain ⟨isUnsafe, convention⟩ := linkage
  cases isUnsafe <;> cases convention with
  | none => simp [text]
  | some name => simp [text, name.colonless]

theorem colon_notMem_repr (n : Nat) : ':' ∉ (Nat.repr n).toList := by
  intro mem
  rw [Nat.toList_repr] at mem
  have digit := Nat.isDigit_of_mem_toDigits (by decide) (by decide) mem
  revert digit
  decide

theorem colon_notMem_intRepr (n : Int) : ':' ∉ (Int.repr n).toList := by
  cases n with
  | ofNat n => exact colon_notMem_repr n
  | negSucc n => simpa [Int.repr] using colon_notMem_repr (n + 1)

/-! ### Expressions -/

/-- Where each of several texts is shortened to the text of something else, so are they all. -/
theorem map_shorten {α : Type} {text : α → String} {short : α → α} {items : List α}
    (each : ∀ t ∈ items, shorten (text t) = text (short t)) :
    (items.map text).map shorten = (items.map short).map text := by
  simpa using each

-- What an expression writes around its parts divides or leads, so each part is shortened by itself.
mutual

theorem TypeExpr.shorten_text (t : TypeExpr) : shorten t.text = t.short.text := by
  cases t with
  | named name => simp only [TypeExpr.text, TypeExpr.short, name.shorten_text]
  | tuple items =>
    have each := map_shorten fun t (_ : t ∈ items) => t.shorten_text
    simp only [TypeExpr.text, TypeExpr.short, shorten_inRound, each]
  | slice item =>
    simp only [TypeExpr.text, TypeExpr.short, (divides "]").shorten_append,
      (divides "[").leads _, item.shorten_text]
  | array item length =>
    have between := divides "; "
    have same : shorten (Nat.repr length) = Nat.repr length :=
      shorten_of_notMem (colon_notMem_repr length)
    simp only [TypeExpr.text, TypeExpr.short, (divides "]").shorten_append, between _ _, same,
      (divides "[").leads _, item.shorten_text]
  | pointer sigil access target =>
    simp only [TypeExpr.text, TypeExpr.short, sigil.leads.append access.leads _,
      target.shorten_text]
  | dyn first others =>
    have keyword : Leads "dyn " := leads_of_isLead (by decide +kernel)
    have plus := divides " + "
    have each := map_shorten fun n (_ : n ∈ others) => n.shorten_text
    simp only [TypeExpr.text, TypeExpr.short, keyword _, plus.shorten_intercalate, List.map_cons,
      first.shorten_text, each]
  | function linkage signature =>
    have same : shorten (linkage.text ++ "fn") = linkage.text ++ "fn" :=
      shorten_of_notMem (by simp [linkage.colonless])
    simp only [TypeExpr.text, TypeExpr.short, signature.shorten_append, same]
termination_by sizeOf t

theorem Named.shorten_text (n : Named) : shorten n.text = n.short.text := by
  cases n with
  | generic path args =>
    have each := map_shorten fun a (_ : a ∈ args) => a.shorten_text
    simp only [Named.text, Named.short, shorten_append_inAngles, path.shorten_text, each]
  | callable path signature =>
    simp only [Named.text, Named.short, signature.shorten_append, path.shorten_text]
termination_by sizeOf n

theorem Arg.shorten_text (a : Arg) : shorten a.text = a.short.text := by
  cases a with
  | type type => simp only [Arg.text, Arg.short, type.shorten_text]
  | binding name type =>
    have equals := divides " = "
    simp only [Arg.text, Arg.short, equals _ _, shorten_of_notMem name.colonless, type.shorten_text]
  | lifetime name =>
    rw [Arg.short, Arg.text]
    exact shorten_of_notMem (by simp [name.colonless])
  | number value =>
    rw [Arg.short, Arg.text]
    exact shorten_of_notMem (colon_notMem_intRepr value)
termination_by sizeOf a

theorem Signature.shorten_append (s : Signature) (a : String) :
    shorten (a ++ s.text) = shorten a ++ s.short.text := by
  cases s with
  | procedure params =>
    have each := map_shorten fun t (_ : t ∈ params) => t.shorten_text
    simp only [Signature.text, Signature.short, ← String.append_assoc,
      (divides ")").shorten_append, (divides "(") _ _, (divides ", ").shorten_intercalate,
      each]
  | function params result =>
    have arrow := divides ") -> "
    have each := map_shorten fun t (_ : t ∈ params) => t.shorten_text
    simp only [Signature.text, Signature.short, ← String.append_assoc, arrow _ _,
      (divides "(") _ _, (divides ", ").shorten_intercalate, each, result.shorten_text]
termination_by sizeOf s

end

mutual

theorem TypeExpr.short_short (t : TypeExpr) : t.short.short = t.short := by
  cases t with
  | named name => simp only [TypeExpr.short, name.short_short]
  | tuple items =>
    have each : ∀ t ∈ items, t.short.short = t.short := fun t mem => t.short_short
    simpa [TypeExpr.short] using each
  | slice item => simp only [TypeExpr.short, item.short_short]
  | array item length => simp only [TypeExpr.short, item.short_short]
  | pointer sigil access target => simp only [TypeExpr.short, target.short_short]
  | dyn first others =>
    have each : ∀ n ∈ others, n.short.short = n.short := fun n mem => n.short_short
    simpa [TypeExpr.short, first.short_short] using each
  | function linkage signature => simp only [TypeExpr.short, signature.short_short]
termination_by sizeOf t

theorem Named.short_short (n : Named) : n.short.short = n.short := by
  cases n with
  | generic path args =>
    have each : ∀ a ∈ args, a.short.short = a.short := fun a mem => a.short_short
    simpa [Named.short, Path.short] using each
  | callable path signature => simp only [Named.short, Path.short, signature.short_short]
termination_by sizeOf n

theorem Arg.short_short (a : Arg) : a.short.short = a.short := by
  cases a with
  | type type => simp only [Arg.short, type.short_short]
  | binding name type => simp only [Arg.short, type.short_short]
  | lifetime name => simp only [Arg.short]
  | number value => simp only [Arg.short]
termination_by sizeOf a

theorem Signature.short_short (s : Signature) : s.short.short = s.short := by
  cases s with
  | procedure params =>
    have each : ∀ t ∈ params, t.short.short = t.short := fun t mem => t.short_short
    simpa [Signature.short] using each
  | function params result =>
    have each : ∀ t ∈ params, t.short.short = t.short := fun t mem => t.short_short
    simpa [Signature.short, result.short_short] using each
termination_by sizeOf s

end

/-- Shortening strips the module paths of a type's name and nothing else, and what it gives is short
already. -/
theorem shorten_type_name (t : TypeExpr) :
    shorten t.text = t.short.text ∧ shorten t.short.text = t.short.text := by
  refine ⟨t.shorten_text, ?_⟩
  rw [t.short.shorten_text, t.short_short]

example :
    let core : Word := ⟨"core", by decide, by decide +kernel⟩
    let iter : Word := ⟨"iter", by decide, by decide +kernel⟩
    let iterator : Word := ⟨"Iterator", by decide, by decide +kernel⟩
    let item : Word := ⟨"Item", by decide, by decide +kernel⟩
    let counter : Word := ⟨"Counter", by decide, by decide +kernel⟩
    let send : Word := ⟨"Send", by decide, by decide +kernel⟩
    let row : TypeExpr := .array (.named (.generic ⟨[core], counter⟩ [])) 2
    let t : TypeExpr := .pointer .reference .mut
      (.dyn (.generic ⟨[core, iter], iterator⟩ [.binding item row]) [.generic ⟨[core], send⟩ []])
    t.text = "&mut dyn core::iter::Iterator<Item = [core::Counter; 2]> + core::Send" ∧
      t.short.text = "&mut dyn Iterator<Item = [Counter; 2]> + Send" := by
  decide +kernel

end WeakIdentity.TypeName
