import CallTree.Text.Case
import CallTree.Text.Blank
import CallTree.Text.Surrogate

/-! Text from bytes. -/
namespace CallTree.Text

-- Powers are those of the core library, whatever else is imported.
attribute [local instance (2000)] instPowNat

/-- How many bytes follow a first byte, and the range of the second. -/
def utf8Tail? (b : UInt8) : Option (Nat × Nat × Nat) :=
  let n := b.toNat
  if 0xC2 ≤ n ∧ n ≤ 0xDF then some (1, 0x80, 0xBF)
  else if n = 0xE0 then some (2, 0xA0, 0xBF)
  else if n = 0xED then some (2, 0x80, 0x9F)
  else if 0xE1 ≤ n ∧ n ≤ 0xEF then some (2, 0x80, 0xBF)
  else if n = 0xF0 then some (3, 0x90, 0xBF)
  else if 0xF1 ≤ n ∧ n ≤ 0xF3 then some (3, 0x80, 0xBF)
  else if n = 0xF4 then some (3, 0x80, 0x8F)
  else none

/-- The following bytes that are in place, at most `count` of them, the first within a range. -/
def tailBytes : Nat → Nat → Nat → List UInt8 → List UInt8
  | 0, _, _, _ => []
  | _, _, _, [] => []
  | n + 1, lo, hi, b :: r =>
    if lo ≤ b.toNat ∧ b.toNat ≤ hi then b :: tailBytes n 0x80 0xBF r else []

/-- The bits of a first byte that count, where `count` bytes follow. -/
def leadBits (count : Nat) (b : UInt8) : Nat := b.toNat % 2 ^ (6 - count)

/-- The first character of bytes, `none` where it is not whole, and how many bytes it takes. -/
def utf8Step (b : UInt8) (r : List UInt8) : Option Char × Nat :=
  if b.toNat < 0x80 then (some (Char.ofNat b.toNat), 1)
  else match utf8Tail? b with
    | none => (none, 1)
    | some (count, lo, hi) =>
      let tail := tailBytes count lo hi r
      if tail.length = count then
        (some (Char.ofNat (tail.foldl (fun n t => n * 64 + t.toNat % 64) (leadBits count b))),
          count + 1)
      else (none, tail.length + 1)

/-- UTF-8, with a replacement for each longest run of bytes that begins a character and ends
too early. -/
def decodeUtf8With (bad : List Char) : Nat → List UInt8 → List Char
  | 0, _ => []
  | _, [] => []
  | n + 1, b :: r =>
    let (c, used) := utf8Step b r
    c.toList ++ (if c.isNone then bad else []) ++ decodeUtf8With bad n (r.drop (used - 1))

def decodeUtf8 (bs : List UInt8) : List Char := decodeUtf8With [replacement] bs.length bs

/-- UTF-8 without any fault in it. -/
def strictUtf8? : Nat → List UInt8 → Option (List Char)
  | 0, _ => some []
  | _, [] => some []
  | n + 1, b :: r =>
    match utf8Step b r with
    | (some c, used) => (strictUtf8? n (r.drop (used - 1))).map (c :: ·)
    | (none, _) => none

def decodeUtf8? (bs : List UInt8) : Option (List Char) := strictUtf8? bs.length bs

/-! Text in units of sixteen bits -/

inductive ByteOrder
  | little
  | big
  deriving DecidableEq

def ByteOrder.unit (o : ByteOrder) (a b : UInt8) : Nat :=
  match o with
  | .little => b.toNat * 256 + a.toNat
  | .big => a.toNat * 256 + b.toNat

/-- The units that bytes make; a byte that is left over at the end is none. -/
def ByteOrder.units (o : ByteOrder) : List UInt8 → List (Option Nat)
  | [] => []
  | [_] => [none]
  | a :: b :: r => some (o.unit a b) :: o.units r

/-- The characters that units make. What belongs to no character is replaced. -/
def decodeUnits : List (Option Nat) → List Char
  | [] => []
  | none :: r => replacement :: decodeUnits r
  | [some n] => [ofUnit n]
  | some n :: m :: r =>
    if isHighSurrogate n then
      match m with
      | none => [replacement]
      | some k =>
        if isLowSurrogate k then joinSurrogates n k :: decodeUnits r
        else replacement :: decodeUnits (some k :: r)
    else ofUnit n :: decodeUnits (m :: r)
  termination_by us => us.length

/-! Charsets -/

inductive Charset
  | utf8
  | latin1
  | ascii
  /-- In the order that a mark at the beginning tells. -/
  | utf16
  | utf16In (o : ByteOrder)
  deriving DecidableEq

namespace Charset

/-- The names of charsets, in small letters and with one underscore between their parts: the proper
one, and the others. -/
def names : List (Charset × String × List String) :=
  [(.utf8, "utf_8", ["utf8", "u8", "utf", "utf8_ucs2", "utf8_ucs4", "cp65001"]),
   (.latin1, "latin_1", ["latin1", "latin", "l1", "iso8859_1", "iso_8859_1", "iso8859", "8859",
      "cp819", "csisolatin1", "ibm819", "iso_8859_1_1987", "iso_ir_100"]),
   (.ascii, "ascii", ["us_ascii", "us", "646", "iso646_us", "iso_ir_6", "ansi_x3_4_1968",
      "ansi_x3.4_1968", "ansi_x3.4_1986", "iso_646.irv_1991", "cp367", "csascii", "ibm367"]),
   (.utf16, "utf_16", ["utf16", "u16"]),
   (.utf16In .little, "utf_16_le", ["utf_16le", "unicodelittleunmarked"]),
   (.utf16In .big, "utf_16_be", ["utf_16be", "unicodebigunmarked"])]

/-- Text with one underscore for each run of them. -/
def joinMarks : List Char → List Char
  | '_' :: '_' :: r => joinMarks ('_' :: r)
  | c :: r => c :: joinMarks r
  | [] => []

/-- A character of a name: letters are small, and what is no letter, digit or point is a mark. -/
def nameChar (c : Char) : Char := if c.isAlphanum || c == '.' then c.toLower else '_'

/-- A name in small letters, with an underscore for what is between letters, digits and points. -/
def normalName (s : List Char) : List Char :=
  let joined := (joinMarks (s.map nameChar)).dropWhile (· == '_')
  if joined.getLast? = some '_' then joined.dropLast else joined

/-- The charset of a name. In the names that are not the proper one, a point can stand for an
underscore. -/
def ofName? (s : List Char) : Option Charset :=
  let name := String.ofList (normalName s)
  let joined := String.ofList ((normalName s).map fun c => if c = '.' then '_' else c)
  (names.find? fun p => p.2.1 == name || p.2.2.contains name || p.2.2.contains joined).map (·.1)

/-- Text from bytes, with a replacement for what is no character. -/
def decode (c : Charset) (bs : List UInt8) : List Char :=
  match c with
  | .utf8 => decodeUtf8 bs
  | .latin1 => bs.map fun b => Char.ofNat b.toNat
  | .ascii => bs.map fun b => if b.toNat < 128 then Char.ofNat b.toNat else replacement
  | .utf16 => match bs with
    | 0xFF :: 0xFE :: r => decodeUnits (ByteOrder.little.units r)
    | 0xFE :: 0xFF :: r => decodeUnits (ByteOrder.big.units r)
    | r => decodeUnits (ByteOrder.little.units r)
  | .utf16In o => decodeUnits (o.units bs)

end Charset
end CallTree.Text
