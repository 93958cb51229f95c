import CallTree.Host.Plain
import CallTree.Host.Run

/-! Tables of callables: names, the functions behind them, and the ways to use them. -/
namespace CallTree

/-- Callables by name, in the order in which the names first came up. -/
abbrev Table := Dict Entry

namespace Entry

def allows (e : Entry) : Mode → Except Fault Bool
  | .data => .ok e.data
  | .path => .ok e.path
  | .unknown v => .error (.unknownMode v)

/-- An entry for a value, with the flags that its marks give it. -/
def ofTarget (os : Objects) (name target : Value) : Entry :=
  match target with
  | .function f => match os.signature? f with
    | some s => ⟨name, target, s.data, s.path⟩
    | none => ⟨name, target, false, false⟩
  | _ => ⟨name, target, false, false⟩

end Entry

namespace Table

/-- Puts a name into a list without repeats in the order of code points. -/
def insertName (n : String) : List String → List String
  | [] => [n]
  | m :: r => if n < m then n :: m :: r else if n = m then m :: r else m :: insertName n r

def orderNames (ns : List String) : List String := ns.foldr insertName []

def isPublic (name : String) : Bool := !name.startsWith "_"

/-- The value that a member offers as a callable. -/
def callableOf? (os : Objects) (owner : String) (place : Nat) (m : Member) : Option Value :=
  match m.kind with
  | .method | .static | .classwide | .functionAttribute | .callableAttribute =>
    some (.function ⟨owner, place, m.name⟩)
  | .attribute v => if os.isCallable v && !os.isClass v then some v else none
  | .property | .slot _ | .nestedClass | .ghost => none

/-- A name and the value behind it, if that is a callable. -/
abbrev Candidate := String × Option Value

def memberCandidates (os : Objects) (owner : String) (ms : List Member) : List Candidate :=
  ms.mapIdx fun i m => (m.name, callableOf? os owner i m)

def listingCandidate (owner : String) (place : Nat) : Candidate :=
  (Host.listingName, some (.function ⟨owner, place, Host.listingName⟩))

def valueCandidate (os : Objects) (name : String) (v : Value) : Candidate :=
  (name, if os.isCallable v && !os.isClass v then some v else none)

def operationCandidates (names : List String) : List Candidate :=
  names.map fun n => (n, some (.function ⟨"", 0, n⟩))

/-- The names of a value and the callables behind them. -/
def candidates (os : Objects) (v : Value) : List Candidate :=
  match v with
  | .object owner => match os.lookup owner with
    | some (.provider ms _) => listingCandidate owner ms.length :: memberCandidates os owner ms
    | some (.plain ms _) => memberCandidates os owner ms
    | some (.functions positional named) =>
      [listingCandidate owner (positional.length + named.length)]
    | some (.lister _) => [listingCandidate owner 0]
    | some (.adapter of) => [listingCandidate owner 0, valueCandidate os "obj" of]
    | some (.mapping _) => operationCandidates mappingOperations
    | some (.space parts) => parts.map fun p => valueCandidate os p.1 p.2
    | _ => []
  | v => operationCandidates v.operations

/-- The last candidate of a name is the one that counts. -/
def candidate? (cs : List Candidate) (name : String) : Option Value :=
  (cs.reverse.lookup name).join

/-- Public callables in the order of their names. -/
def ofCandidates (os : Objects) (cs : List Candidate) : Table :=
  (orderNames (cs.map (·.1))).filterMap fun n =>
    if isPublic n then
      (candidate? cs n).map fun v => (.str n, Entry.ofTarget os (.str n) v)
    else none

/-- The public callables of a value. -/
def ofObject (os : Objects) (v : Value) : Table := ofCandidates os (candidates os v)

/-- Callables under given names; a later one takes the place of an earlier one. -/
def ofNamed (os : Objects) (entries : List (String × Value)) : Table :=
  let funcs := Dict.ofList (entries.map fun e => (Value.str e.1, e.2))
  (funcs.filter fun e => os.isCallable e.2).map fun e => (e.1, Entry.ofTarget os e.1 e.2)

def ofMapping (os : Objects) (entries : List (Value × Value)) : Table :=
  ofNamed os (entries.map fun e => (e.1.text os.textOf, e.2))

/-- Entries as they are listed: every value counts, and flags may be given. -/
def ofItems (os : Objects) (owner : String) (entries : List (Value × Item)) : Table :=
  Dict.ofList (entries.mapIdx fun i e =>
    let target := e.2.toValue owner i
    (e.1, match e.2 with
      | .flagged _ data path => ⟨e.1, target, data, path⟩
      | _ => Entry.ofTarget os e.1 target))

def isEmptyValue : Value → Bool
  | .null | .bool false | .int 0 | .str "" | .bytes [] | .list [] | .tuple [] | .set []
  | .map [] => true
  | .float x => x.toInt? == some 0
  | _ => false

/-- What a provider answers when it is asked for its callables. -/
def ofListing (os : Objects) (owner : String) : Listing → Except Fault Table
  | .fails => .error .failed
  | .reports e => .error (.reported e)
  | .items es => .ok (ofItems os owner es)
  | .gives v =>
    if isEmptyValue v then .ok []
    else match os.entries? v with
      | some es => .ok (Dict.ofList (es.map fun e => (e.1, Entry.ofTarget os e.1 e.2)))
      | none => .error .missingAttribute

/-- The callables of a value. An error value has none. -/
def ofValue (os : Objects) (v : Value) : Except Fault Table :=
  match v with
  | .error _ => .ok []
  | .map es => .ok (ofMapping os es)
  | .object owner => match os.lookup owner with
    | some (.provider ms _) =>
      .ok (ofCandidates os
        ((memberCandidates os owner ms).filter fun c => c.1 != Host.listingName))
    | some (.functions positional named) =>
      .ok (ofNamed os (os.functionEntries owner positional named))
    | some (.mapping es) => .ok (ofMapping os (itemEntries owner 0 es))
    | some (.adapter of) => .ok (ofObject os of)
    | some (.lister l) => ofListing os owner l
    | _ => .ok (ofObject os v)
  | v => .ok (ofObject os v)

def names (t : Table) : List Value := Dict.keys t

/-- A new registration replaces flags and function, not the place of the name. -/
def register (t : Table) (name target : Value) (data path : Bool) : Table :=
  Dict.insert name ⟨name, target, data, path⟩ t

/-- The entry of a name, if it may be used in the given way. -/
def resolve (t : Table) (name : Value) (mode : Mode) : Except Fault (Except CallError Entry) :=
  match Dict.get? name t with
  | none => .ok (.error CallError.methodNotFound)
  | some e => match e.allows mode with
    | .ok true => .ok (.ok e)
    | .ok false => .ok (.error CallError.methodAccess)
    | .error f => .error f

/-- Whether a name stands before another one, if the two have an order: texts by their code points,
whole numbers by size. -/
def isBefore? (a b : Value) : Option Bool :=
  match a.keyForm, b.keyForm with
  | .str a, .str b => some (a < b)
  | .int a, .int b => some (a < b)
  | _, _ => none

/-- Puts a name into names that are in order. -/
def insertInOrder (v : Value) : List Value → Except Fault (List Value)
  | [] => .ok [v]
  | w :: r => match isBefore? v w with
    | some true => .ok (v :: w :: r)
    | some false => do return w :: (← insertInOrder v r)
    | none => .error .badCall

/-- The names in their order, as one text. -/
def repr (t : Table) : Except Fault String := do
  let ordered ← (names t).foldrM insertInOrder []
  return "CallableTable(" ++ String.ofList (Value.shown id (.list ordered)) ++ ")"

end Table
end CallTree
