import CallTree.CallError
import CallTree.Moment
import CallTree.Number.Shortest

/-! Values: what statements produce, requests carry and host functions take and return. -/
namespace CallTree

/-- A function of the host: the object it belongs to, its place there, and its name. -/
structure FunctionRef where
  owner : String
  place : Nat
  name : String
  deriving DecidableEq, Inhabited

inductive Value
  | null
  | bool (b : Bool)
  | int (n : Int)
  | float (x : Binary64)
  | str (s : String)
  | bytes (bs : List UInt8)
  | moment (m : Moment)
  | list (xs : List Value)
  | tuple (xs : List Value)
  | set (xs : List Value)
  | map (entries : List (Value × Value))
  | error (e : CallError)
  | object (name : String)
  | function (f : FunctionRef)
  deriving Inhabited

namespace Value

mutual
/-- Whether two values are written alike, part by part. -/
def same : Value → Value → Bool
  | .null, .null => true
  | .bool a, .bool b => a == b
  | .int a, .int b => a == b
  | .float a, .float b => a == b
  | .str a, .str b => a == b
  | .bytes a, .bytes b => a == b
  | .moment a, .moment b => decide (a = b)
  | .list a, .list b => sameAll a b
  | .tuple a, .tuple b => sameAll a b
  | .set a, .set b => sameAll a b
  | .map a, .map b => sameEntries a b
  | .error a, .error b => decide (a = b)
  | .object a, .object b => a == b
  | .function a, .function b => decide (a = b)
  | _, _ => false

def sameAll : List Value → List Value → Bool
  | [], [] => true
  | a :: as, b :: bs => same a b && sameAll as bs
  | _, _ => false

def sameEntries : List (Value × Value) → List (Value × Value) → Bool
  | [], [] => true
  | (k, v) :: as, (k', v') :: bs => same k k' && same v v' && sameEntries as bs
  | _, _ => false
end

mutual
theorem same_iff (a b : Value) : same a b = true ↔ a = b := by
  cases a <;> cases b <;> simp [same, sameAll_iff, sameEntries_iff]

theorem sameAll_iff (as bs : List Value) : sameAll as bs = true ↔ as = bs := by
  cases as <;> cases bs <;> simp [sameAll, same_iff, sameAll_iff]

theorem sameEntries_iff (as bs : List (Value × Value)) :
    sameEntries as bs = true ↔ as = bs := by
  match as, bs with
  | [], [] | [], _ :: _ | _ :: _, [] => simp [sameEntries]
  | (k, v) :: as, (k', v') :: bs =>
    simp [sameEntries, same_iff k k', same_iff v v', sameEntries_iff as bs, and_assoc]
end

instance : DecidableEq Value := fun a b => decidable_of_iff _ (same_iff a b)

mutual
/-- The value that stands for all keys equal to a given one: numbers are equal by their size,
so a truth value and a fraction without a fractional part are whole numbers. -/
def keyForm : Value → Value
  | .bool b => .int (if b then 1 else 0)
  | .float x => match x.toInt? with
    | some n => .int n
    | none => .float x
  | .tuple xs => .tuple (keyForms xs)
  | v => v

def keyForms : List Value → List Value
  | [] => []
  | x :: r => keyForm x :: keyForms r
end

/-- Whether two values are the same key of a mapping. -/
def sameKey (a b : Value) : Bool := decide (keyForm a = keyForm b)

def isError : Value → Bool
  | .error _ => true
  | _ => false

mutual
/-- A value inside another one, as text. `object` gives the text of an object of the host. -/
def shown (object : String → String) : Value → List Char
  | .null => "None".toList
  | .bool b => if b then "True".toList else "False".toList
  | .int n => (toString n).toList
  | .float x => (NumberLayout.plain.render x).toList
  | .str s => Text.quoted s.toList
  | .bytes bs => Text.quotedBytes bs
  | .moment m => m.text
  | .list xs => '[' :: shownAll object xs ++ [']']
  | .tuple [x] => '(' :: shown object x ++ [',', ')']
  | .tuple xs => '(' :: shownAll object xs ++ [')']
  | .set [] => "set()".toList
  | .set xs => '\x7b' :: shownAll object xs ++ ['\x7d']
  | .map es => '\x7b' :: shownEntries object es ++ ['\x7d']
  | .error e => e.repr.toList
  | .object name => (object name).toList
  | .function f => f.name.toList

def shownAll (object : String → String) : List Value → List Char
  | [] => []
  | [x] => shown object x
  | x :: r => shown object x ++ ',' :: ' ' :: shownAll object r

def shownEntries (object : String → String) : List (Value × Value) → List Char
  | [] => []
  | [(k, v)] => shown object k ++ ':' :: ' ' :: shown object v
  | (k, v) :: r =>
    shown object k ++ ':' :: ' ' :: (shown object v ++ ',' :: ' ' :: shownEntries object r)
end

/-- A value as text: text is itself, an error its message, and the rest as inside another value. -/
def text (object : String → String) : Value → String
  | .str s => s
  | .error e => e.message
  | v => String.ofList (shown object v)

/-- The word for the type of a value. -/
def typeName : Value → String
  | .null => "NoneType"
  | .bool _ => "bool"
  | .int _ => "int"
  | .float _ => "float"
  | .str _ => "str"
  | .bytes _ => "bytes"
  | .moment (.date _) => "date"
  | .moment (.clock _) => "time"
  | .moment (.dateTime ..) => "datetime"
  | .list _ => "list"
  | .tuple _ => "tuple"
  | .set _ => "set"
  | .map _ => "dict"
  | .error _ => "QeresError"
  | .object _ => "object"
  | .function _ => "function"

end Value
end CallTree
