import CallTree.Fault
import CallTree.Plain
import CallTree.Text.Split

/-! Plain data as TOML text: the values of a table first, then its arrays of tables, and then the
tables in it, level by level. -/
namespace CallTree.Toml

abbrev Entries := List (String × Plain)

/-! Values -/

/-- Joins text that was cut at an escape by two digits. The escape becomes one by four digits where
its backslash is not itself escaped. -/
def joinEscape (p q : List Char) : List Char :=
  let p := Text.replace ['\\', '\\'] ['\\'] p
  let slashes := (p.reverse.takeWhile (· == '\\')).length
  -- a backslash at the beginning of the text is not counted
  let counted := min slashes (p.length - 1)
  p ++ (if slashes = 0 ∨ counted % 2 = 1 then ['x'] else ['u', '0', '0']) ++ q

def joinEscapes (p : List Char) : List (List Char) → Except Fault (List Char)
  | [] => .ok p
  | q :: r =>
    if p = [] then
      match r with
      | [] => .error .badIndex
      | q' :: r => joinEscapes (joinEscape q q') r
    else joinEscapes (joinEscape p q) r

/-- A string in double quotes. -/
def printString (s : String) : Except Fault (List Char) :=
  let q := Text.quoted s.toList
  let body := Text.inner q
  let body := if q.head? = some '\'' then
      Text.replace ['"'] ['\\', '"'] (Text.replace ['\\', '\''] ['\''] body)
    else body
  match Text.split ['\\', 'x'] body with
  | [] => .ok ['"', '"']
  | p :: r => (joinEscapes p r).map fun s => '"' :: s ++ ['"']

def numberLayout : NumberLayout := ⟨"inf", "nan", false, 1⟩

mutual
/-- A value on one line. Of a table only the names are left. -/
def printValue : Plain → Except Fault (List Char)
  | .null => .ok "\"None\"".toList
  | .bool b => .ok (if b then "true".toList else "false".toList)
  | .int n => .ok (toString n).toList
  | .float x => .ok (numberLayout.render x).toList
  | .str s => printString s
  | .list xs => do return '[' :: (← printItems xs) ++ [']']
  | .map es => do return '[' :: (← printNames es) ++ [']']

def printItems : List Plain → Except Fault (List Char)
  | [] => .ok []
  | x :: r => do return ' ' :: (← printValue x) ++ ',' :: (← printItems r)

def printNames : Entries → Except Fault (List Char)
  | [] => .ok []
  | (k, _) :: r => do return ' ' :: (← printString k) ++ ',' :: (← printNames r)
end

/-! Tables -/

/-- Whether a name needs no quotes. A line break at its end is not looked at. -/
def isBareName (k : String) : Bool :=
  let s := k.toList
  let s := if s.getLast? = some '\n' then s.dropLast else s
  s ≠ [] && s.all fun c => c.isAlphanum || c == '_' || c == '-'

def printName (k : String) : Except Fault (List Char) :=
  if isBareName k then .ok k.toList else printString k

/-- The text of a table without the tables in it, and those tables by their names. -/
structure Section where
  text : List Char
  tables : List (List Char × Entries)

def isMap : Plain → Bool
  | .map _ => true
  | _ => false

/-- The entries of an item of an array of tables. In text and in a list the first item is taken for
a name, of which there is no entry; one that cannot be written is the fault that is met first. -/
def itemEntries : Plain → Except Fault Entries
  | .map es => .ok es
  | .str s => match s.toList with
    | [] => .ok []
    | c :: _ => do
      let _ ← printName (String.singleton c)
      .error .badCall
  | .list [] => .ok []
  | .list (.str s :: _) => do
    let _ ← printName s
    .error .badCall
  | _ => .error .badCall

/-- A known name keeps its place and gets the new table. -/
def insertTable (name : List Char) (es : Entries) :
    List (List Char × Entries) → List (List Char × Entries)
  | [] => [(name, es)]
  | (n, t) :: r => if n = name then (n, es) :: r else (n, t) :: insertTable name es r

/-- The line above a table. -/
def header (name : List Char) : List Char := '[' :: name ++ [']', '\n']

abbrev Writer := List Char → Entries → Except Fault Section

/-- The tables in an item of an array, which follow it level by level. The first argument bounds the
levels. -/
def printLevels (write : Writer) (path : List Char) :
    Nat → List (List Char × Entries) → Except Fault (List Char)
  | 0, _ | _, [] => .ok []
  | n + 1, tables => do
    let sections ← tables.mapM fun (name, es) => do
      let s ← write (path ++ '.' :: name ++ ['.']) es
      return (name, s)
    let text := sections.flatMap fun (name, s) =>
      if s.text = [] then [] else header (path ++ '.' :: name) ++ s.text
    let deeper := sections.flatMap fun (name, s) =>
      s.tables.map fun t => (name ++ '.' :: t.1, t.2)
    return text ++ (← printLevels write path n
      (deeper.foldl (fun d t => insertTable t.1 t.2 d) []))

/-- The items of an array of tables. -/
def printArray (write : Writer) (levels : Nat) (path : List Char) :
    List Plain → Except Fault (List Char)
  | [] => .ok []
  | x :: r => do
    let s ← write (path ++ ['.']) (← itemEntries x)
    let below ← printLevels write path levels s.tables
    let own := if s.text.head? = some '[' then '\n' :: s.text else s.text ++ ['\n']
    return header ('[' :: path ++ [']']) ++ own ++ below ++ (← printArray write levels path r)

/-- The entries of a table. `front` is the path to it with a point behind it, `values` and `arrays`
are what is written so far. -/
def printEntries (write : Writer) (levels : Nat) (front values arrays : List Char)
    (tables : List (List Char × Entries)) : Entries → Except Fault Section
  | [] => .ok ⟨values ++ arrays, tables⟩
  | (k, v) :: r => do
    let name ← printName k
    match v with
    | .map es => printEntries write levels front values arrays (insertTable name es tables) r
    | .null => printEntries write levels front values arrays tables r
    | .list xs =>
      if xs.any isMap then
        let a ← printArray write levels (front ++ name) xs
        printEntries write levels front values (arrays ++ a) tables r
      else
        let line := name ++ [' ', '=', ' '] ++ (← printValue v) ++ ['\n']
        printEntries write levels front (values ++ line) arrays tables r
    | v =>
      let line := name ++ [' ', '=', ' '] ++ (← printValue v) ++ ['\n']
      printEntries write levels front (values ++ line) arrays tables r

/-- A table. The first argument bounds how deep tables lie in each other. -/
def printTable : Nat → Writer
  | 0, _, _ => .ok ⟨[], []⟩
  | n + 1, front, es => printEntries (printTable n) n front [] [] [] es

/-- The tables under their headers, level by level, below the text so far. -/
def printTables (bound : Nat) (done : List Char) :
    Nat → List (List Char × Entries) → Except Fault (List Char)
  | 0, _ | _, [] => .ok done
  | n + 1, tables => do
    let sections ← tables.mapM fun (name, es) => do
      return (name, ← printTable bound (name ++ ['.']) es)
    let text := sections.foldl (fun done (name, s) =>
      if s.text = [] ∧ s.tables ≠ [] then done
      else
        let gap := if done = [] ∨ (done.reverse.take 2) = ['\n', '\n'] then [] else ['\n']
        done ++ gap ++ header name ++ s.text) done
    let deeper := sections.flatMap fun (name, s) =>
      s.tables.map fun t => (name ++ '.' :: t.1, t.2)
    printTables bound text n (deeper.foldl (fun d t => insertTable t.1 t.2 d) [])

mutual
/-- How deep tables and arrays lie in each other. -/
def depth : Plain → Nat
  | .list xs => 1 + depths xs
  | .map es => 1 + entryDepths es
  | _ => 1

def depths : List Plain → Nat
  | [] => 0
  | x :: r => max (depth x) (depths r)

def entryDepths : Entries → Nat
  | [] => 0
  | (_, v) :: r => max (depth v) (entryDepths r)
end

/-- The text of a table as a document. -/
def render (es : Entries) : Except Fault String := do
  let bound := entryDepths es + 2
  let s ← printTable bound [] es
  return String.ofList (← printTables bound s.text bound s.tables)

end CallTree.Toml
