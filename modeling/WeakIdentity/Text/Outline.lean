/-! Outlines: how a structured value is shown to a reader. An outline is written on one line, or
with one part to a line, each level four spaces further in and each part followed by a comma. -/

namespace WeakIdentity.Text

/-- The pair of brackets around the parts of a group. -/
inductive Bracket where
  | round
  | curly
  deriving DecidableEq, Repr

/-- What stands between a group's name and its first part on one line. -/
def Bracket.openLine : Bracket → String
  | .round => "("
  | .curly => " \x7b "

/-- What stands after the last part on one line. -/
def Bracket.closeLine : Bracket → String
  | .round => ")"
  | .curly => " \x7d"

/-- What stands between a group's name and the end of its line when parts have lines of their
own. -/
def Bracket.openBlock : Bracket → String
  | .round => "("
  | .curly => " \x7b"

/-- What stands on the last line of a group whose parts have lines of their own. -/
def Bracket.closeBlock : Bracket → String
  | .round => ")"
  | .curly => "\x7d"

/-- A value as it is shown: a text, a labelled value, or a named group of parts. -/
inductive Outline where
  | atom (text : String)
  | labelled (label : String) (value : Outline)
  | group (name : String) (bracket : Bracket) (parts : List Outline)

namespace Outline

def ofNat (n : Nat) : Outline := .atom (Nat.repr n)

mutual

def line : Outline → String
  | .atom text => text
  | .labelled label value => label ++ ": " ++ value.line
  | .group name bracket parts =>
    name ++ bracket.openLine ++ linesJoined parts ++ bracket.closeLine

/-- Parts on one line, divided by commas. -/
def linesJoined : List Outline → String
  | [] => ""
  | [part] => part.line
  | part :: rest => part.line ++ ", " ++ linesJoined rest

end

/-- The blanks before a part at depth `depth`. -/
def indentation (depth : Nat) : String := String.ofList (List.replicate (4 * depth) ' ')

mutual

/-- The outline with one part to a line, for a place that is itself `depth` levels in. -/
def block (depth : Nat) : Outline → String
  | .atom text => text
  | .labelled label value => label ++ ": " ++ value.block depth
  | .group name bracket parts =>
    name ++ bracket.openBlock ++ "\n" ++ blockLines (depth + 1) parts ++
      indentation depth ++ bracket.closeBlock

/-- Parts at depth `depth`, a line and a comma each. -/
def blockLines (depth : Nat) : List Outline → String
  | [] => ""
  | part :: rest =>
    indentation depth ++ part.block depth ++ ",\n" ++ blockLines depth rest

end

/-- The outline as text, on one line or with one part to a line. -/
def render (outline : Outline) (indented : Bool) : String :=
  if indented then outline.block 0 else outline.line

end Outline

end WeakIdentity.Text
