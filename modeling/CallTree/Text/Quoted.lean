import CallTree.Text.Printable

/-! Quoted text: what is printed for text and bytes inside a message or another value. -/
namespace CallTree.Text

/-- A number in base sixteen, with zeros in front up to `width` digits. -/
def hex (width n : Nat) : List Char :=
  let ds := Nat.toDigits 16 n
  List.replicate (width - ds.length) '0' ++ ds

/-- The single quote, unless only the double quote spares an escape. -/
def quoteFor (hasSingle hasDouble : Bool) : Char :=
  if hasSingle && !hasDouble then '"' else '\''

def escapeControl (n : Nat) : List Char :=
  if n = 9 then ['\\', 't']
  else if n = 10 then ['\\', 'n']
  else if n = 13 then ['\\', 'r']
  else if n < 0x100 then '\\' :: 'x' :: hex 2 n
  else if n < 0x10000 then '\\' :: 'u' :: hex 4 n
  else '\\' :: 'U' :: hex 8 n

def escapeChar (quote c : Char) : List Char :=
  if c == quote || c == '\\' then ['\\', c]
  else if isPrintable c then [c]
  else escapeControl c.toNat

def quoted (s : List Char) : List Char :=
  let q := quoteFor (s.contains '\'') (s.contains '"')
  q :: s.flatMap (escapeChar q) ++ [q]

def escapeByte (quote : Char) (b : UInt8) : List Char :=
  let c := Char.ofNat b.toNat
  if c == quote || c == '\\' then ['\\', c]
  else if 32 ≤ b.toNat && b.toNat < 127 then [c]
  else escapeControl b.toNat

def quotedBytes (bs : List UInt8) : List Char :=
  let q := quoteFor (bs.contains 39) (bs.contains 34)
  'b' :: q :: bs.flatMap (escapeByte q) ++ [q]

def quote (s : String) : String := String.ofList (quoted s.toList)

end CallTree.Text
