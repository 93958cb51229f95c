import CallTree.Fault
import CallTree.Number.Reading
import CallTree.Text.Split

/-! Strings of TOML documents, with the escapes in them. -/
namespace CallTree.Toml

/-- The characters behind the backslash of short escapes, and what each stands for. -/
def shortEscapes : List (Char × Char) :=
  [('0', Char.ofNat 0), ('b', Char.ofNat 8), ('f', Char.ofNat 12), ('n', '\n'), ('r', '\r'),
   ('t', '\t'), ('"', '"')]

/-- Replaces the short escapes. Escapes by number stay as they are. -/
def unescape : List Char → Except Fault (List Char)
  | [] => .ok []
  | ['\\'] => .ok ['\\']
  | '\\' :: c :: r =>
    match shortEscapes.lookup c with
    | some d => (unescape r).map (d :: ·)
    | none =>
      if c = '\\' then (unescape r).map ('\\' :: ·)
      else if c = 'u' ∨ c = 'U' then (unescape r).map fun s => '\\' :: c :: s
      else .error .malformedToml
  | c :: r => (unescape r).map (c :: ·)

/-- Whether the text between backslashes begins with what can be escaped. `escaped` tells that the
backslash in front is itself escaped. -/
def knownEscapes (escaped : Bool) : List (List Char) → Bool
  | [] => true
  | [] :: r => knownEscapes (!escaped) r
  | (c :: _) :: r =>
    ((shortEscapes.lookup c).isSome || c == 'u' || c == 'U' || escaped) && knownEscapes false r

/-- The character that digits in base sixteen write. -/
def readCodePoint (digits : List Char) : Except Fault Char :=
  if !digits.all fun c => (Number.digitValue? 16 c).isSome then .error .malformedToml
  else match digits with
    | [] => .error .badIndex
    | c :: r =>
      if c.toLower = 'd' then
        match r with
        | [] => .error .badIndex
        | d :: _ =>
          if '0' ≤ d ∧ d ≤ '7' then .ok (Char.ofNat (Number.ofDigits 16 digits))
          else .error .malformedToml
      else
        let n := Number.ofDigits 16 digits
        if n < 0x110000 then .ok (Char.ofNat n) else .error .malformedToml

/-- Replaces escapes by number of a given width; `parts` is the text between their marks. -/
def codePoints (mark : List Char) (width : Nat) :
    Bool → List (List Char) → Except Fault (List Char)
  | _, [] => .ok []
  | true, p :: r => do
    return mark ++ p ++ (← codePoints mark width (Text.endsEscaped p) r)
  | false, p :: r => do
    let c ← readCodePoint (p.take width)
    return c :: p.drop width ++ (← codePoints mark width false r)

def replaceCodePoints (mark : List Char) (width : Nat) (s : List Char) : Except Fault (List Char) :=
  match Text.split mark s with
  | [] => .ok []
  | p :: r => do return p ++ (← codePoints mark width (Text.endsEscaped p) r)

/-- Whether nothing is behind the quote that closes a string. The parts are what its quotes cut the
text into. -/
def endsClosed (triple closed : Bool) (quotes : Nat) : List (List Char) → Bool
  | [] => true
  | [] :: r => if triple then endsClosed triple closed (quotes + 1) r
    else endsClosed triple true quotes r
  | p :: r =>
    if Text.endsEscaped p then endsClosed triple closed quotes r
    else if closed then false
    else if !triple || 1 < quotes then endsClosed triple true quotes r
    else endsClosed triple closed 0 r

/-- The text of a string together with its quotes `q`. -/
def readQuoted (q : Char) (v : List Char) : Except Fault (List Char) := do
  let parts := Text.split [q] (v.drop 1)
  let (triple, parts) := match parts with
    | [] :: [] :: r => (true, r)
    | r => (false, r)
  if !endsClosed triple false 0 parts then .error .malformedToml
  let v ←
    if q = '"' then do
      if !knownEscapes false ((Text.split ['\\'] v).drop 1) then .error .malformedToml
      unescape (← replaceCodePoints ['\\', 'U'] 8 (← replaceCodePoints ['\\', 'u'] 4 v))
    else pure v
  let second := v[1]?
  let v := if second = some q ∧ (v.length < 3 ∨ v[2]? = second) then (v.drop 2).dropLast.dropLast
    else v
  return Text.inner v

end CallTree.Toml
