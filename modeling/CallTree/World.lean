import CallTree.Host.Run

/-! A host whose functions follow scripts: what they return, raise, count and remember. -/
namespace CallTree

inductive Action
  | give (v : Value)
  /-- Gives the arguments as a list. -/
  | echo
  | argument (i : Int)
  | report (e : CallError)
  | fail
  | missing
  | count (name : String)
  | store (name : String)
  | load (name : String)
  /-- Gives the second of the first pair whose first is the argument. -/
  | pick (cases : List (Value × Value))
  deriving Inhabited

/-- What stands behind the functions of an object. -/
inductive Script
  /-- One action for each function, by its place. -/
  | actions (as : List Action)
  /-- For a hook: the action for each argument it knows. -/
  | rules (cases : List (Value × Action))

/-- A host as data. -/
structure World where
  objects : Objects
  scripts : List (String × Script)

/-- The variables of a world. -/
abbrev Store := List (String × Value)

namespace Store

def get (s : Store) (name : String) : Value := (s.lookup name).getD .null

def set (s : Store) (name : String) (v : Value) : Store :=
  (name, v) :: s.filter (·.1 != name)

end Store

namespace Value

mutual
/-- A value with each function reduced to its name. Two values that are the same then are written
alike. -/
def outline : Value → Value
  | .function f => .function ⟨"", 0, f.name⟩
  | .list xs => .list (outlines xs)
  | .tuple xs => .tuple (outlines xs)
  | .set xs => .set (outlines xs)
  | .map es => .map (entryOutlines es)
  | v => v

def outlines : List Value → List Value
  | [] => []
  | x :: r => outline x :: outlines r

def entryOutlines : List (Value × Value) → List (Value × Value)
  | [] => []
  | (k, v) :: r => (outline k, outline v) :: entryOutlines r
end

def writtenAlike (a b : Value) : Bool := decide (outline a = outline b)

end Value

namespace Action

/-- The element of a list at a place, counted from the end where it is negative. -/
def elementAt? (xs : List Value) (i : Int) : Option Value :=
  if 0 ≤ i then xs[i.toNat]?
  else if i.natAbs ≤ xs.length then xs[xs.length - i.natAbs]? else none

/-- The number after the one in a variable; a variable that is not set holds zero. -/
def successor? : Option Value → Option Value
  | none => some (.int 1)
  | some (.int n) => some (.int (n + 1))
  | some (.bool b) => some (.int (if b then 2 else 1))
  | some (.float x) =>
    some (.float (if x.isFinite then x.add (Binary64.ofDecimal false 1 0) else x))
  | some _ => none

def perform (a : Action) (args : List Value) (s : Store) : Except Fault Value × Store :=
  match a with
  | .give v => (.ok v, s)
  | .echo => (.ok (.list args), s)
  | .argument i => match elementAt? args i with
    | some v => (.ok v, s)
    | none => (.error .badIndex, s)
  | .report e => (.error (.reported e), s)
  | .fail => (.error .failed, s)
  | .missing => (.error .missingAttribute, s)
  | .count name => match successor? (s.lookup name) with
    | some v => (.ok v, s.set name v)
    | none => (.error .badCall, s)
  | .store name => match args with
    | v :: _ => (.ok v, s.set name v)
    | [] => (.error .badIndex, s)
  | .load name => (.ok (s.get name), s)
  | .pick cases => match args with
    | v :: _ => match cases.find? fun c => c.1.writtenAlike v with
      | some c => (.ok c.2, s)
      | none => (.error .badLookup, s)
    | [] => (.error .badIndex, s)

end Action

namespace World

def perform (w : World) (f : FunctionRef) (args : List Value) (s : Store) :
    Except Fault Value × Store :=
  match w.scripts.lookup f.owner with
  | some (.actions as) => (as[f.place]?.getD .echo).perform args s
  | some (.rules cases) => match args with
    | v :: _ => match cases.find? fun c => c.1.writtenAlike v with
      | some c => c.2.perform args s
      | none => (.ok .null, s)
    | [] => (.ok .null, s)
  | none => (.ok .null, s)

def host (w : World) : Host Store := ⟨w.objects, w.perform⟩

def initial : Machine Store := ⟨[], [], 0⟩

end World
end CallTree
