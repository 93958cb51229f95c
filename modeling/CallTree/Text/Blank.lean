/-! Blank characters, and text without the blank at its ends. -/
namespace CallTree.Text

/-- The code points of white space. -/
def blanks : List Nat :=
  [0x9, 0xA, 0xB, 0xC, 0xD, 0x1C, 0x1D, 0x1E, 0x1F, 0x20, 0x85, 0xA0, 0x1680, 0x2000, 0x2001,
   0x2002, 0x2003, 0x2004, 0x2005, 0x2006, 0x2007, 0x2008, 0x2009, 0x200A, 0x2028, 0x2029, 0x202F,
   0x205F, 0x3000]

def isBlank (c : Char) : Bool := blanks.contains c.toNat

/-- Text without the blank in front of it. -/
def trimLeft (s : List Char) : List Char := s.dropWhile isBlank

/-- Text without the blank after it. -/
def trimRight (s : List Char) : List Char := (s.reverse.dropWhile isBlank).reverse

/-- Text without the blank at its ends. -/
def trim (s : List Char) : List Char := trimRight (trimLeft s)

def AllBlank (s : List Char) : Prop := ∀ c ∈ s, isBlank c = true

instance (s : List Char) : Decidable (AllBlank s) :=
  List.decidableBAll (fun c => isBlank c = true) s

end CallTree.Text
