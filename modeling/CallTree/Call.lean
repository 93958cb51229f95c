import CallTree.Text.Blank
import CallTree.Text.Word

/-! Statements such as `getUser(42, admin)`, and the calls that they stand for. -/
namespace CallTree

/-- A name and the texts of the arguments. -/
structure Call where
  name : String
  args : List String
  deriving DecidableEq, Inhabited

namespace Call

/-- Cuts text at the first `(` that follows a word character, into the text before the name, the
name, and the text after the bracket. What is read already is kept in reverse: `run` holds the word
characters just read, and `before` what came before them. -/
def cutAfter (before run : List Char) : List Char → Option (List Char × List Char × List Char)
  | [] => none
  | c :: r =>
    if Text.isWord c then cutAfter before (c :: run) r
    else if c = '(' ∧ run ≠ [] then some (before.reverse, run.reverse, r)
    else cutAfter (c :: (run ++ before)) [] r

def cut? (s : List Char) : Option (List Char × List Char × List Char) := cutAfter [] [] s

/-- Splits at each comma that does not follow a backslash. -/
def splitCommas (afterBackslash : Bool) : List Char → List (List Char)
  | [] => [[]]
  | c :: r =>
    if c = ',' ∧ afterBackslash = false then [] :: splitCommas false r
    else match splitCommas (c == '\\') r with
      | [] => [[c]]
      | p :: ps => (c :: p) :: ps

/-- An escaped comma is a comma. -/
def unescapeCommas : List Char → List Char
  | '\\' :: ',' :: r => ',' :: unescapeCommas r
  | c :: r => c :: unescapeCommas r
  | [] => []

def escapeCommas : List Char → List Char
  | [] => []
  | c :: r => if c = ',' then '\\' :: ',' :: escapeCommas r else c :: escapeCommas r

/-- Text that is all blank holds no argument. -/
def splitArguments (s : List Char) : List (List Char) :=
  if Text.AllBlank s then []
  else (splitCommas false s).map fun p => unescapeCommas (Text.trim p)

def dropClosing (s : List Char) : List Char :=
  if s.getLast? = some ')' then s.dropLast else s

/-- Text before the name stays part of the first argument. -/
def parse? (s : List Char) : Option (List Char × List (List Char)) :=
  match cut? (Text.trim s) with
  | some (before, name, after) => some (name, splitArguments (dropClosing (before ++ after)))
  | none => none

def ofStatement? (s : String) : Option Call :=
  (parse? s.toList).map fun p => ⟨String.ofList p.1, p.2.map String.ofList⟩

/-- The texts with `sep` between each two. -/
def joinWith (sep : List Char) : List (List Char) → List Char
  | [] => []
  | [p] => p
  | p :: q :: r => p ++ sep ++ joinWith sep (q :: r)

/-- A statement for a call, without any blank of its own. -/
def render (name : List Char) (args : List (List Char)) : List Char :=
  name ++ '(' :: joinWith [','] (args.map escapeCommas) ++ [')']

def toStatement (c : Call) : String :=
  String.ofList (render c.name.toList (c.args.map String.toList))

end Call
end CallTree
