/-! Characters as units of sixteen bits, of which those beyond the first plane take two. -/
namespace CallTree.Text

/-- The character that stands for what is none. -/
def replacement : Char := '\uFFFD'

def isHighSurrogate (n : Nat) : Bool := 0xD800 ≤ n && n < 0xDC00

def isLowSurrogate (n : Nat) : Bool := 0xDC00 ≤ n && n < 0xE000

/-- The character that a high and a low surrogate make together. -/
def joinSurrogates (high low : Nat) : Char :=
  Char.ofNat (0x10000 + (high - 0xD800) * 0x400 + (low - 0xDC00))

/-- The character with a number. A surrogate alone is none. -/
def ofUnit (n : Nat) : Char :=
  if isHighSurrogate n || isLowSurrogate n then replacement else Char.ofNat n

end CallTree.Text
