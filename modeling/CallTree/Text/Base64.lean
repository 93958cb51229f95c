/-! Bytes written with six bits in a character. -/
namespace CallTree.Text

-- Powers are those of the core library, whatever else is imported.
attribute [local instance (2000)] instPowNat

def base64Digits : List Char :=
  "ABCDEFGHIJKLMNOPQRSTUVWXYZabcdefghijklmnopqrstuvwxyz0123456789+/".toList

def base64Value? (c : Char) : Option Nat := base64Digits.findIdx? (· == c)

/-- Reads on after `count` digits of a group, whose last bits below a byte are `bits`, and `pads`
padding characters. Characters that are no digits are skipped. Padding that fills a group ends the
text, and no group may end without it. -/
def base64Group (count bits pads : Nat) : List Char → Option (List UInt8)
  | [] => if count = 0 then some [] else none
  | c :: r =>
    if c = '=' then
      if count < 2 then base64Group count bits pads r
      else if 4 ≤ count + pads + 1 then some []
      else base64Group count bits (pads + 1) r
    else match base64Value? c with
      | none => base64Group count bits pads r
      | some v =>
        if count = 0 then base64Group 1 v 0 r
        else
          let n := bits * 64 + v
          let keep := 6 - 2 * count
          (base64Group ((count + 1) % 4) (n % 2 ^ keep) 0 r).map
            (UInt8.ofNat (n / 2 ^ keep) :: ·)

def decodeBase64? (s : List Char) : Option (List UInt8) := base64Group 0 0 0 s

end CallTree.Text
