import CallTree.Dict
import CallTree.Document.Toml.Moment
import CallTree.Document.Toml.Quoted

/-! Values of TOML documents: scalars, arrays and inline tables. -/
namespace CallTree.Toml

/-- The kinds of values. The items of an array are of one kind. -/
inductive Kind
  | bool
  | text
  | array
  | inlineTable
  | clock
  | date
  | int
  | float
  deriving DecidableEq

abbrev Read := Except Fault

def malformed {α : Type} : Read α := .error .malformedToml

/-! Numbers -/

/-- Whether zeros and underscores stand where a number may have them. -/
def wellSpaced (s : List Char) : Bool :=
  let ok := fun n : List Char => (Text.cut? ['_', '_'] n).isNone
  match Text.trim s with
  | [] => false
  | [c] => c != '_'
  | c :: d :: r =>
    let n := c :: d :: r
    if c = '_' ∨ n.getLast? = some '_' ∨ (Text.cut? ['_', '.'] n).isSome ∨
      (Text.cut? ['.', '_'] n).isSome then false
    else if c = '0' ∧ !(['.', 'o', 'b', 'x'].contains d) then false
    else if c = '+' ∨ c = '-' then
      if d = '0' ∧ r ≠ [] ∧ r.head? ≠ some '.' then false else ok (d :: r)
    else ok n

def isFloatText (v : List Char) : Bool :=
  v.contains '.' || (!v.contains 'x' && (v.contains 'e' || v.contains 'E'))

/-- The difference of zero and a number. -/
def fromZero (x : Binary64) : Binary64 := if x = .zero false then x else x.neg

/-- A number. `spaced` tells whether its text is well spaced. -/
def number (spaced : Bool) (v : List Char) : Read (Value × Kind) := do
  if !spaced then malformed
  let (negative, r) := Number.splitSign v
  let r := r.filter (· != '_')
  let float := fun s => match Number.readFloat? s with
    | some x => pure (Value.float (if negative then fromZero x else x), Kind.float)
    | none => malformed
  if isFloatText r then
    if r.dropWhile (· != '.') = ['.'] ∨ !(r.head?.any Char.isDigit) then malformed
    else float r
  else if ["inf", "nan"].contains (String.ofList (Text.lower r)) then float r
  else match Number.readInt? r with
    | some n => return (.int (if negative then -n else n), .int)
    | none => malformed

/-! The parts of arrays and inline tables -/

def isQuote (c : Char) : Bool := c == '"' || c == '\''

/-- Whether text ends with the quote that it begins with. -/
def isBounded (s : List Char) : Bool :=
  s.head? = s.getLast? && !Text.endsEscaped (Text.inner s)

/-- Whether text is a string as a whole, and not the beginning of one over many lines. -/
def isWholeString (s : List Char) : Bool :=
  isBounded s &&
    !(match s, s.reverse with
      | a :: b :: c :: _, _ :: y :: z :: _ => a == b && b == c && y != a && z != a
      | _, _ => false)

/-- Puts strings together again that were cut at a comma inside. `begun` tells that the first part
is put together already. -/
def joinStrings (begun : Bool) (p : List Char) : List (List Char) → Read (List (List Char))
  | [] => if begun && !isWholeString (Text.trim p) then .error .badIndex else .ok [p]
  | q :: r =>
    if isWholeString (Text.trim p) then (joinStrings false q r).map (p :: ·)
    else joinStrings true (p ++ ',' :: q) r

/-- Where the search for inline tables in an array is. -/
inductive Search
  /-- Right behind a table. -/
  | behind
  | between
  /-- Inside a table, of which the text in reverse is known. -/
  | inside (text : List Char)

/-- The inline tables in the text of an array. -/
def tableParts (depth : Nat) (inString : Bool) : Search → List Char → List (List Char)
  | _, [] => []
  | .behind, _ :: r => tableParts depth inString .between r
  | .between, c :: r =>
    tableParts depth inString (if c = '\x7b' then .inside [c] else .between) r
  | .inside text, c :: r =>
    let inString := if isQuote c then !inString || Text.escapedAfter text else inString
    let depth := if !inString && c == '\x7b' then depth + 1 else depth
    if inString || c != '\x7d' then tableParts depth inString (.inside (c :: text)) r
    else if 1 < depth then tableParts (depth - 1) inString (.inside (c :: text)) r
    else (c :: text).reverse :: tableParts depth inString .behind r

/-- The text of an array cut at the commas that are outside of brackets. -/
def bracketParts (depth : Int) (part : List Char) : List Char → List (List Char)
  | [] => [part.reverse]
  | c :: r =>
    if c = ',' ∧ depth = 0 then part.reverse :: bracketParts 0 [] r
    else
      let change : Int := if c = '[' then 1 else if c = ']' then -1 else 0
      bracketParts (depth + change) (c :: part) r

/-- Whether the text of an array begins with a string. -/
def beginsWithString (s : List Char) : Bool := ((Text.trim s).head?).any isQuote

/-- The texts of the items of an array, from the text between its brackets. -/
def itemTexts (s : List Char) : Read (List (List Char)) :=
  if s.contains '[' ∧ Text.trim (s.takeWhile (· != '[')) = [] then .ok (bracketParts 0 [] s)
  else if (Text.trim s).head? = some '\x7b' then
    .ok (match s with
      | c :: r => tableParts (if c = '\x7b' then 1 else 0) false (.inside [c]) r
      | [] => [])
  else match Text.split [','] s with
    | [] => .ok []
    | p :: r => if beginsWithString s then joinStrings false p r else .ok (p :: r)

/-- Whether text looks like the value of an entry as a whole. -/
def looksWhole : List Char → Bool
  | [] => false
  | c :: r =>
    let last := (c :: r).getLast?
    (isQuote c && last == some c) || c == '-' || c.isDigit ||
      ["true", "false"].contains (String.ofList (c :: r)) ||
      (c == '[' && last == some ']') || (c == '\x7b' && last == some '\x7d')

/-- Whether text is an entry of an inline table as a whole. -/
def isWholeEntry (p : List Char) : Read Bool :=
  match Text.cut? ['='] p with
  | none => malformed
  | some (_, v) => if Text.trim v = [] then .error .badIndex else .ok (looksWhole (Text.trim v))

/-- Puts entries of an inline table together again that were cut at a comma inside. -/
def joinEntries (p : List Char) : List (List Char) → Read (List (List Char))
  | [] => do if ← isWholeEntry p then return [p] else malformed
  | q :: r => do
    if ← isWholeEntry p then return p :: (← joinEntries q r)
    else joinEntries (p ++ ',' :: q) r

def entryTexts (s : List Char) : Read (List (List Char)) :=
  match Text.split [','] s with
  | [] => .ok []
  | [p] => if Text.trim p = [] then .ok [] else joinEntries p []
  | p :: r => joinEntries p r

/-! Entries -/

/-- Cuts a line at its quotes, so that every second part is in quotes. -/
def quoteParts (line : List Char) : List (List Char) :=
  match Text.split ['"'] line with
  | first :: second :: rest =>
    if first.contains '\'' then
      let (singles, rest) := close (Text.split ['\''] first) (second :: rest)
      singles ++ outside rest
    else outside (first :: second :: rest)
  | parts => outside parts
where
  /-- A double quote inside single quotes ends no part. -/
  close : List (List Char) → List (List Char) → List (List Char) × List (List Char)
    | singles, [] => (singles, [])
    | singles, d :: r =>
      if singles.length % 2 = 1 then (singles, d :: r)
      else close (singles.dropLast ++ Text.split ['\''] (singles.getLast?.getD [] ++ '"' :: d)) r
  outside : List (List Char) → List (List Char)
    | [] => []
    | p :: r => Text.split ['\''] p ++ r

/-- How many times `sep` stands up to its first place outside of quotes. -/
def placesUpToUnquoted (sep : List Char) : Bool → List (List Char) → Nat
  | _, [] => 1
  | quoted, p :: r =>
    if !quoted && (Text.cut? sep p).isSome then 1
    else Text.occurrences sep p + placesUpToUnquoted sep (!quoted) r

/-- Whether the text behind an equals sign can be a value as a whole. -/
def canBeValue (s : List Char) : Bool :=
  match s with
  | [] => true
  | c :: _ =>
    [' ', '\t', '\'', '"', '[', '\x7b'].contains c ||
      ["true", "false"].contains (String.ofList (Text.trim s)) ||
      (Number.readFloat? s).isSome || (readDate? s).isSome || (readClock? s).isSome

/-- Without the underscores, if it begins with a digit. -/
def withoutUnderscores (s : List Char) : List Char :=
  if s.head?.any Char.isDigit then s.filter (· != '_') else s

/-- Looks for a later equals sign until what is behind it can be a value. Gives the key and the
value, and whether the value is well spaced. -/
def cutEntry (line : List Char) : Nat → Nat → List (List Char) → Bool →
    Read (List Char × List Char × Bool)
  | 0, _, _, _ => malformed
  | n + 1, count, parts, spaced =>
    let v := parts.getLast?.getD []
    if canBeValue v then
      .ok (Text.trim (Text.join ['='] parts.dropLast), Text.trim v, spaced)
    else
      let parts' := Text.splitAtMost ['='] (count + 1) line
      let v' := parts'.getLast?.getD []
      if v' = v then malformed
      else cutEntry line n (count + 1) parts' (spaced && wellSpaced v')

def entryOf (line : List Char) : Read (List Char × List Char × Bool) :=
  let count := placesUpToUnquoted ['='] false (quoteParts line)
  let parts := Text.splitAtMost ['='] count line
  let v := parts.getLast?.getD []
  cutEntry line (line.length + 1) count (parts.dropLast ++ [withoutUnderscores v]) (wellSpaced v)

/-- The names in a key with points, of which parts in quotes are names as they are. -/
def keyLevels : Bool → List (List Char) → List (List Char)
  | _, [] => []
  | true, p :: r => p :: keyLevels false r
  | false, p :: r => (Text.split ['.'] p).map Text.trim ++ keyLevels true r

/-- The tables that a key leads through, and its last name. -/
def readKey (k : List Char) : Read (List String × String) :=
  if k.contains '.' then
    match ((keyLevels false (quoteParts k)).reverse.dropWhile (· == [])) with
    | [] => .error .badIndex
    | name :: tables => .ok
      (((tables.reverse.filter (· != [])).map String.ofList), String.ofList (Text.trim name))
  else match k with
    | [] => .error .badIndex
    | c :: _ =>
      if isQuote c ∧ k.getLast? = some c then do
        return ([], String.ofList (← unescape (Text.inner k)))
      else .ok ([], String.ofList k)

/-- A string that goes on over the next lines. -/
structure OpenString where
  key : String
  text : List Char
  /-- Whether its last line break is escaped. -/
  escaped : Bool

/-- Puts the last item of an array together, where it is a string with commas. -/
def lastItem : List (List Char) → Read (List Char)
  | [] => .ok []
  | [p] => .ok p
  | p :: q :: r => match p with
    | [] => .error .badIndex
    | c :: _ => if isQuote c then .ok p else lastItem ((q ++ ',' :: p) :: r)
  termination_by ps => ps.length

/-- Whether a value is the first line of a string in three quotes. -/
def opensString (v : List Char) : Read Bool := do
  if v.length < 3 then return false
  let p ← if v.head? = some '[' ∧ v.getLast? ≠ some ']' ∧ beginsWithString (Text.inner v) then
      lastItem ((Text.split [','] (Text.trim (v.drop 1))).reverse)
    else pure v
  match p with
  | [] => .error .badIndex
  | a :: r =>
    if !isQuote a then return false
    match r with
    | [] => .error .badIndex
    | b :: r =>
      if b ≠ a then return false
      match r with
      | [] => .error .badIndex
      | c :: _ =>
        if c ≠ a then return false
        return !(5 < p.length ∧ (p.reverse.take 3).all (· == a))

def OpenString.ofLine (key : String) (line : List Char) : OpenString :=
  if Text.endsEscaped line then ⟨key, line.dropLast, true⟩ else ⟨key, line ++ ['\n'], false⟩

/-- Applies `f` to the table that names lead to; tables that are missing are made. -/
def inTable {α : Type} (f : Value → Read (Value × α)) : List String → Value → Read (Value × α)
  | [], t => f t
  | k :: ks, .map es => do
    let (t, a) ← inTable f ks ((Dict.get? (.str k) es).getD (.map []))
    return (.map (Dict.insert (.str k) t es), a)
  | _ :: _, _ => .error .badCall

/-- Adds an entry to a table, which does not have its key yet. -/
def add (key : String) (v : Value) : Value → Read Value
  | .map es => if Dict.contains (.str key) es then malformed
    else .ok (.map (Dict.insert (.str key) v es))
  | _ => malformed

/-- Adds the entry that a line writes to a table, unless it is a string that goes on. -/
def assign (value : Bool → List Char → Read (Value × Kind)) (table : Value) (line : List Char) :
    Read (Value × Option OpenString) := do
  let (k, v, spaced) ← entryOf line
  let (tables, name) ← readKey k
  inTable (fun t => do
    if ← opensString v then
      let _ ← add name .null t
      return (t, some (OpenString.ofLine name v))
    else
      let (x, _) ← value spaced v
      return (← add name x t, none)) tables table

/-- Adds the entries of an inline table to a table. -/
def assignAll (value : Bool → List Char → Read (Value × Kind)) :
    List (List Char) → Value → Read Value
  | [], t => .ok t
  | line :: r, t => do
    match ← assign value t line with
    | (t, none) => assignAll value r t
    | (t, some _) => return t

def inlineTable (value : Bool → List Char → Read (Value × Kind)) (s : List Char) (t : Value) :
    Read Value := do
  assignAll value (← entryTexts (Text.inner s)) t

/-- The items of an array, all of the kind of the first one. -/
def items (value : Bool → List Char → Read (Value × Kind)) :
    Option Kind → List (List Char) → Read (List Value)
  | _, [] => .ok []
  | kind, s :: r => do
    if Text.trim s = [] then items value kind r
    else
      let (x, k) ← value true (Text.trim s)
      if kind.any (· != k) then malformed
      else return x :: (← items value (some (kind.getD k)) r)

/-- A value with its kind. The first argument bounds how deep values lie in each other. -/
def value : Nat → Bool → List Char → Read (Value × Kind)
  | 0, _, _ => malformed
  | n + 1, spaced, v => match v with
    | [] => malformed
    | c :: _ =>
      if v = "true".toList then .ok (.bool true, .bool)
      else if v = "false".toList then .ok (.bool false, .bool)
      else if ["true", "false"].contains (String.ofList (Text.lower v)) then malformed
      else if isQuote c then do return (.str (String.ofList (← readQuoted c v)), .text)
      else if c = '[' then do
        return (.list (← items (value n) none (← itemTexts (Text.inner v))), .array)
      else if c = '\x7b' then do return (← inlineTable (value n) v (.map []), .inlineTable)
      else match readClock? v with
        | some t => if t.isValid then .ok (.moment (.clock t), .clock) else malformed
        | none => match readDate? v with
          | some d => .ok (.moment d, .date)
          | none => number spaced v

/-- The value that a text is as a whole. -/
def readValue (spaced : Bool) (v : List Char) : Read (Value × Kind) := value (v.length + 1) spaced v

end CallTree.Toml
