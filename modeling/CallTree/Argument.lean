import CallTree.Text.Word

/-! Arguments of a statement: the name of a variable, or literal text. -/
namespace CallTree

inductive Argument
  | variable (name : String)
  | literal (text : String)
  deriving DecidableEq

namespace Argument

/-- The end of a line of text: nothing, or one line break. -/
def AtEnd (s : List Char) : Prop := s = [] ∨ s = ['\n']

instance (s : List Char) : Decidable (AtEnd s) := inferInstanceAs (Decidable (_ ∨ _))

/-- The name in text that is as a whole `$\x7bname\x7d`. -/
def variableName? : List Char → Option (List Char)
  | '$' :: '\x7b' :: r =>
    match r.span Text.isWord with
    | (n, '\x7d' :: rest) => if n ≠ [] ∧ AtEnd rest then some n else none
    | _ => none
  | _ => none

/-- One backslash in front keeps text from being read as a variable. -/
def unescapeLiteral : List Char → List Char
  | '\\' :: '$' :: '\x7b' :: r => '$' :: '\x7b' :: r
  | s => s

def ofText (s : String) : Argument :=
  match variableName? s.toList with
  | some n => .variable (String.ofList n)
  | none => .literal (String.ofList (unescapeLiteral s.toList))

end Argument
end CallTree
