import CallTree.Document.Yaml.Tag
import CallTree.Document.Yaml.Token.Scan
import CallTree.Dict
import CallTree.Text.Base64

/-! The values that YAML documents stand for. -/
namespace CallTree.Yaml

-- Powers are those of the core library, whatever else is imported.
attribute [local instance (2000)] instPowNat

/-- What goes wrong, and in how many collections. Collections are filled from the outside in, so the
fault in the fewest of them is the one that shows. -/
structure Misfit where
  depth : Nat
  fault : Fault

abbrev Build := Except Misfit

namespace Build

def fail {α : Type} (depth : Nat) (f : Fault) : Build α := .error ⟨depth, f⟩

/-- Both results, or the fault in the fewer collections, the first of two in equally many. -/
def both {α β : Type} : Build α → Build β → Build (α × β)
  | .ok a, .ok b => .ok (a, b)
  | .error e, .ok _ => .error e
  | .ok _, .error e => .error e
  | .error e, .error f => .error (if f.depth < e.depth then f else e)

def all {α : Type} : List (Build α) → Build (List α)
  | [] => .ok []
  | x :: r => (both x (all r)).map fun p => p.1 :: p.2

end Build

namespace Construct

/-- A whole number in a base, which the text may name again. -/
def readInBase? (base : Nat) (s : List Char) : Option Int :=
  let (negative, r) := Number.splitSign (Number.plainText s)
  let r := match r with
    | '0' :: c :: t =>
      if Number.baseOf? c = some base then (match t with | '_' :: t => t | t => t) else r
    | r => r
  (Number.readDigits? base r).map (Number.signed negative)

def orBadValue {α : Type} : Option α → Read α
  | some a => .ok a
  | none => .error .badValue

/-- The number that parts of sixty write, the last one the least. -/
def sixties (parts : List Int) : Int := parts.foldl (fun n d => n * 60 + d) 0

/-- Digits without their sign, and without the lines that set them apart. -/
def splitNumber (s : List Char) : Read (Bool × List Char) :=
  match s.filter (· != '_') with
  | [] => .error .badIndex
  | '-' :: r => .ok (true, r)
  | '+' :: r => .ok (false, r)
  | r => .ok (false, r)

def int (s : List Char) : Read Value := do
  let (negative, r) ← splitNumber s
  let n ← match r with
    | [] => .error .badIndex
    | ['0'] => pure 0
    | '0' :: 'b' :: r => orBadValue (readInBase? 2 r)
    | '0' :: 'x' :: r => orBadValue (readInBase? 16 r)
    | '0' :: _ => orBadValue (readInBase? 8 r)
    | _ =>
      if r.contains ':' then do
        sixties <$> (Tag.colonParts r).mapM fun p => orBadValue (Number.readDecimalInt? p)
      else orBadValue (Number.readDecimalInt? r)
  return .int (if negative then -n else n)

/-- The sum of the parts, each times a power of sixty, added up from the last. -/
def sixtiesFloat (parts : List Binary64) : Binary64 :=
  (parts.reverse.foldl (fun (acc : Binary64 × Nat) d =>
    (acc.1.add (d.mul (Binary64.ofDecimal false (60 ^ acc.2) 0)), acc.2 + 1))
    (Binary64.zero false, 0)).1

def float (s : List Char) : Read Value := do
  let (negative, r) ← splitNumber (s.map Char.toLower)
  let x ←
    if r = ".inf".toList then pure (Binary64.infinity false)
    else if r = ".nan".toList then pure Binary64.nan
    else if r.contains ':' then
      sixtiesFloat <$> (Tag.colonParts r).mapM fun p => orBadValue (Number.readFloat? p)
    else orBadValue (Number.readFloat? r)
  return .float (if negative ∧ !x.isNaN then x.neg else x)

def bool (s : String) : Read Value :=
  let w := s.map Char.toLower
  if ["yes", "true", "on"].contains w then .ok (.bool true)
  else if ["no", "false", "off"].contains w then .ok (.bool false)
  else .error .badKey

def inRange : Moment → Bool
  | .date d => d.isValid
  | .clock c => c.isValid
  | .dateTime d c offset =>
    d.isValid && c.isValid && (match offset with | some m => m.natAbs < 1440 | none => true)

def timestamp (s : List Char) : Read Value :=
  match Tag.readMoment? s with
  | some m => if inRange m then .ok (.moment m) else .error .badValue
  | none => .error .missingAttribute

def binary (s : List Char) : Read Value :=
  if s.all fun c => c.toNat < 128 then
    match Text.decodeBase64? s with
    | some bs => .ok (.bytes bs)
    | none => malformed
  else malformed

/-- The value of a scalar by its tag. -/
def scalar (tag : String) (s : String) : Read Value :=
  match (Node.standard.toList.isPrefixOf tag.toList : Bool),
      String.ofList (tag.toList.drop Node.standard.toList.length) with
  | true, "null" => .ok .null
  | true, "bool" => bool s
  | true, "int" => int s.toList
  | true, "float" => float s.toList
  | true, "binary" => binary s.toList
  | true, "timestamp" => timestamp s.toList
  | true, "str" => .ok (.str s)
  | _, _ => malformed

def isScalarTag (tag : String) : Bool :=
  ["null", "bool", "int", "float", "binary", "timestamp", "str"].any fun t =>
    tag == Node.standard ++ t

def hasTag (n : Node) (t : String) : Bool := n.tag == Node.standard ++ t

/-- The text of a node where a scalar is asked for: a mapping may name it under `=`. -/
def scalarText? : Node → Option String
  | .scalar _ s => some s
  | .sequence .. => none
  | .mapping _ es => inEntries? es
where
  inEntries? : List (Node × Node) → Option String
    | [] => none
    | (k, v) :: r => if hasTag k Tag.value then scalarText? v else inEntries? r

mutual
/-- The entries of a mapping together with those that it takes over from others. The entries taken
over stand in front, and of two sources the first one wins. -/
def flatten : Node → Read (List (Node × Node))
  | .mapping _ es => do
    let (merged, own) ← flattenEntries es
    return merged ++ own
  | _ => malformed

def flattenEntries : List (Node × Node) → Read (List (Node × Node) × List (Node × Node))
  | [] => .ok ([], [])
  | (k, v) :: r =>
    if hasTag k Tag.merge then do
      let taken ← match v with
        | .mapping t es => flatten (.mapping t es)
        | .sequence _ sources => do
          let each ← flattenAll sources
          pure each.reverse.flatten
        | .scalar .. => malformed
      let (merged, own) ← flattenEntries r
      return (taken ++ merged, own)
    else do
      let (merged, own) ← flattenEntries r
      let k := if hasTag k Tag.value then
        (match k with | .scalar _ s => .scalar (Node.standard ++ Tag.str) s | k => k) else k
      return (merged, (k, v) :: own)

def flattenAll : List Node → Read (List (List (Node × Node)))
  | [] => .ok []
  | x :: r => do
    let es ← flatten x
    return es :: (← flattenAll r)
end

/-- Whether a node stands for a collection. No collection is the key of a mapping, and this is known
before the collection is filled. -/
def isCollection (n : Node) : Bool :=
  ["seq", "map", "set", "omap", "pairs"].any (hasTag n)

def lift {α : Type} (depth : Nat) : Read α → Build α
  | .ok a => .ok a
  | .error f => .error ⟨depth, f⟩

/-- The value of a node inside `depth` collections. The first argument bounds how deep nodes lie. -/
def value : Nat → Nat → Node → Build Value
  | 0, depth, _ => .error ⟨depth, .malformedYaml⟩
  | n + 1, depth, node =>
    let inner := depth + 1
    let entries (es : List (Node × Node)) : Build (List (Value × Value)) :=
      Build.all (es.map fun e =>
        let k := if isCollection e.1 then .error ⟨inner, .malformedYaml⟩ else value n inner e.1
        Build.both k (value n inner e.2))
    let pairs (items : List Node) : Build (List Value) :=
      Build.all (items.map fun x => match x with
        | .mapping _ [(k, v)] =>
          (Build.both (value n inner k) (value n inner v)).map fun p => .tuple [p.1, p.2]
        | _ => .error ⟨inner, .malformedYaml⟩)
    if isScalarTag node.tag then
      match scalarText? node with
      | some s => lift depth (scalar node.tag s)
      | none => .error ⟨depth, .malformedYaml⟩
    else if hasTag node "seq" then
      match node with
      | .sequence _ items => (Build.all (items.map (value n inner))).map .list
      | _ => .error ⟨inner, .malformedYaml⟩
    else if hasTag node "map" then
      (lift inner (flatten node)).bind fun es =>
        (entries es).map fun ps => .map (Dict.ofList ps)
    else if hasTag node "set" then
      (lift inner (flatten node)).bind fun es =>
        (entries es).map fun ps => .set (Dict.ofList ps).keys
    else if hasTag node "omap" || hasTag node "pairs" then
      match node with
      | .sequence _ items => (pairs items).map .list
      | _ => .error ⟨inner, .malformedYaml⟩
    else .error ⟨depth, .malformedYaml⟩

end Construct

mutual
/-- How many nodes lie inside each other. -/
def Node.depth : Node → Nat
  | .scalar .. => 1
  | .sequence _ items => 1 + Node.depths items
  | .mapping _ es => 1 + Node.entryDepths es

def Node.depths : List Node → Nat
  | [] => 0
  | x :: r => max (Node.depth x) (Node.depths r)

def Node.entryDepths : List (Node × Node) → Nat
  | [] => 0
  | (k, v) :: r => max (max (Node.depth k) (Node.depth v)) (Node.entryDepths r)
end

/-- The value that a text stands for. An empty text stands for nothing. -/
def read (s : List Char) : Read Value := do
  match ← Node.ofTokens Tag.resolve (← tokens s) with
  | none => return .null
  | some root => match Construct.value (root.depth + 1) 0 root with
    | .ok v => return v
    | .error e => .error e.fault

end CallTree.Yaml
