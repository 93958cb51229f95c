import CallTree.Key

/-! Files, and the paths that lead to them. -/
namespace CallTree.CommandLine

/-- Why a path leads to no file. -/
inductive PathFault
  | missing
  | directory
  /-- A file stands where a directory has to be. -/
  | notDirectory
  | unusable
  deriving DecidableEq

/-- The files below a directory, by the names on the way to them. -/
structure Directory where
  files : List (List String × List UInt8)

/-- The names in a path. -/
def pathNames (path : String) : List String :=
  ((Key.splitOn '/' path.toList).filter fun n => n ≠ [] ∧ n ≠ ['.']).map String.ofList

namespace Directory

def isDirectory (d : Directory) (names : List String) : Bool :=
  d.files.any fun f => names.isPrefixOf f.1 && names.length < f.1.length

def file? (d : Directory) (names : List String) : Option (List UInt8) := d.files.lookup names

/-- Follows names from a directory below this one. What is above it, or elsewhere, is not known. -/
def follow (d : Directory) (here : List String) : List String → Except PathFault (List UInt8)
  | [] => .error .directory
  | ".." :: r => if here = [] then .error (if r = [] then .directory else .missing)
    else follow d here.dropLast r
  | name :: r =>
    let names := here ++ [name]
    match d.file? names with
    | some bs => if r = [] then .ok bs else .error .notDirectory
    | none => if d.isDirectory names then follow d names r else .error .missing

/-- The bytes of the file that a path leads to. -/
def open? (d : Directory) (path : String) : Except PathFault (List UInt8) :=
  if path.toList.contains (Char.ofNat 0) then .error .unusable
  else
    let names := pathNames path
    if path.toList.head? = some '/' then .error (if names = [] then .directory else .missing)
    else d.follow [] names

end Directory
end CallTree.CommandLine
