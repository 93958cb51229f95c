import CallTree.Text.Charset
import Mathlib.Tactic.SplitIfs

/-! UTF-8 as it is written: each character is read back with just its bytes. -/
namespace CallTree.Text

variable {b : UInt8} {c : Char} {s : List Char} {t r : List UInt8} {n count lo hi : Nat}

/-- The byte that follows a first one, with the last six bits of a number. -/
def followingByte (n : Nat) : UInt8 := UInt8.ofNat (n % 64 + 128)

theorem toNat_followingByte (n : Nat) : (followingByte n).toNat = n % 64 + 128 := by
  simp only [followingByte, UInt8.toNat_ofNat']
  omega

theorem tailBytes_cons (h : lo ≤ b.toNat ∧ b.toNat ≤ hi) (n : Nat) (r : List UInt8) :
    tailBytes (n + 1) lo hi (b :: r) = b :: tailBytes n 0x80 0xBF r := by
  rw [tailBytes, if_pos h]

theorem tailBytes_followingByte (k n : Nat) (r : List UInt8) :
    tailBytes (n + 1) 0x80 0xBF (followingByte k :: r) =
      followingByte k :: tailBytes n 0x80 0xBF r := by
  refine tailBytes_cons ?_ n r
  rw [toNat_followingByte]
  omega

/-- Bytes that are in place make one character. -/
theorem utf8Step_of_tailBytes (hb : 0x80 ≤ b.toNat) (hl : utf8Tail? b = some (count, lo, hi))
    (ht : tailBytes count lo hi r = t) (hc : t.length = count) :
    utf8Step b r =
      (some (Char.ofNat (t.foldl (fun n x => n * 64 + x.toNat % 64) (leadBits count b))),
        count + 1) := by
  rw [utf8Step, if_neg (by omega), hl]
  simp only [ht, hc, if_true]

theorem utf8Step_two (h : 0x80 ≤ n) (h' : n < 0x800) (r : List UInt8) :
    utf8Step (UInt8.ofNat (n / 64 + 192)) (followingByte n :: r) = (some (Char.ofNat n), 2) := by
  have hb : (UInt8.ofNat (n / 64 + 192)).toNat = n / 64 + 192 :=
    UInt8.toNat_ofNat_of_lt' (show _ < 256 by omega)
  have hl : utf8Tail? (UInt8.ofNat (n / 64 + 192)) = some (1, 0x80, 0xBF) := by
    rw [utf8Tail?, hb, if_pos (by omega)]
  have ht : tailBytes 1 0x80 0xBF (followingByte n :: r) = [followingByte n] :=
    tailBytes_followingByte n 0 r
  rw [utf8Step_of_tailBytes (by omega) hl ht rfl]
  simp only [List.foldl, leadBits, hb, toNat_followingByte]
  congr 3
  omega

/-- The second byte of three is within the range that the first one leaves. A surrogate would not
be. -/
theorem exists_utf8Tail_three (h : 0x800 ≤ n) (h' : n < 0x10000)
    (hs : n < 0xD800 ∨ 0xDFFF < n) :
    ∃ lo hi, utf8Tail? (UInt8.ofNat (n / 4096 + 224)) = some (2, lo, hi) ∧
      lo ≤ (followingByte (n / 64)).toNat ∧ (followingByte (n / 64)).toNat ≤ hi := by
  have hb : (UInt8.ofNat (n / 4096 + 224)).toNat = n / 4096 + 224 :=
    UInt8.toNat_ofNat_of_lt' (show _ < 256 by omega)
  rw [toNat_followingByte, utf8Tail?, hb]
  split_ifs
  · omega
  · exact ⟨_, _, rfl, by omega, by omega⟩
  · exact ⟨_, _, rfl, by omega, by omega⟩
  · exact ⟨_, _, rfl, by omega, by omega⟩
  all_goals omega

theorem utf8Step_three (h : 0x800 ≤ n) (h' : n < 0x10000) (hs : n < 0xD800 ∨ 0xDFFF < n)
    (r : List UInt8) :
    utf8Step (UInt8.ofNat (n / 4096 + 224)) (followingByte (n / 64) :: followingByte n :: r) =
      (some (Char.ofNat n), 3) := by
  have hb : (UInt8.ofNat (n / 4096 + 224)).toNat = n / 4096 + 224 :=
    UInt8.toNat_ofNat_of_lt' (show _ < 256 by omega)
  obtain ⟨lo, hi, hl, hr⟩ := exists_utf8Tail_three h h' hs
  have ht : tailBytes 2 lo hi (followingByte (n / 64) :: followingByte n :: r) =
      [followingByte (n / 64), followingByte n] := by
    rw [tailBytes_cons hr, tailBytes_followingByte, tailBytes]
  rw [utf8Step_of_tailBytes (by omega) hl ht rfl]
  simp only [List.foldl, leadBits, hb, toNat_followingByte]
  congr 3
  omega

/-- The second byte of four is within the range that the first one leaves. -/
theorem exists_utf8Tail_four (h : 0x10000 ≤ n) (h' : n < 0x110000) :
    ∃ lo hi, utf8Tail? (UInt8.ofNat (n / 262144 + 240)) = some (3, lo, hi) ∧
      lo ≤ (followingByte (n / 4096)).toNat ∧ (followingByte (n / 4096)).toNat ≤ hi := by
  have hb : (UInt8.ofNat (n / 262144 + 240)).toNat = n / 262144 + 240 :=
    UInt8.toNat_ofNat_of_lt' (show _ < 256 by omega)
  rw [toNat_followingByte, utf8Tail?, hb]
  split_ifs
  · omega
  · omega
  · omega
  · omega
  · exact ⟨_, _, rfl, by omega, by omega⟩
  · exact ⟨_, _, rfl, by omega, by omega⟩
  · exact ⟨_, _, rfl, by omega, by omega⟩
  · omega

theorem utf8Step_four (h : 0x10000 ≤ n) (h' : n < 0x110000) (r : List UInt8) :
    utf8Step (UInt8.ofNat (n / 262144 + 240))
        (followingByte (n / 4096) :: followingByte (n / 64) :: followingByte n :: r) =
      (some (Char.ofNat n), 4) := by
  have hb : (UInt8.ofNat (n / 262144 + 240)).toNat = n / 262144 + 240 :=
    UInt8.toNat_ofNat_of_lt' (show _ < 256 by omega)
  obtain ⟨lo, hi, hl, hr⟩ := exists_utf8Tail_four h h'
  have ht : tailBytes 3 lo hi
      (followingByte (n / 4096) :: followingByte (n / 64) :: followingByte n :: r) =
        [followingByte (n / 4096), followingByte (n / 64), followingByte n] := by
    rw [tailBytes_cons hr, tailBytes_followingByte, tailBytes_followingByte, tailBytes]
  rw [utf8Step_of_tailBytes (by omega) hl ht rfl]
  simp only [List.foldl, leadBits, hb, toNat_followingByte]
  congr 3
  omega

/-- The bytes of a character are its first one and those that follow, and with anything after them
they are read as the character. -/
theorem utf8Step_utf8EncodeChar (c : Char) (r : List UInt8) :
    ∃ b t, String.utf8EncodeChar c = b :: t ∧ utf8Step b (t ++ r) = (some c, t.length + 1) := by
  have hc : Char.ofNat c.toNat = c := Char.ofNat_toNat c
  have hv : c.toNat < 0xD800 ∨ 0xDFFF < c.toNat ∧ c.toNat < 0x110000 := c.valid
  unfold String.utf8EncodeChar
  dsimp only
  generalize hn : c.val.toNat = n
  have hn' : c.toNat = n := hn
  rw [hn'] at hc hv
  split_ifs with h₁ h₂ h₃
  · refine ⟨_, [], rfl, ?_⟩
    have hb : (UInt8.ofNat n).toNat = n := UInt8.toNat_ofNat_of_lt' (show _ < 256 by omega)
    rw [utf8Step, hb, if_pos (by omega), hc]
    rfl
  · refine ⟨UInt8.ofNat (n / 64 + 192), [followingByte n], ?_, ?_⟩
    · rw [Nat.mod_eq_of_lt (by omega : n / 64 < 32)]
      rfl
    · exact hc ▸ utf8Step_two (by omega) (by omega) r
  · refine ⟨UInt8.ofNat (n / 4096 + 224), [followingByte (n / 64), followingByte n], ?_, ?_⟩
    · rw [Nat.mod_eq_of_lt (by omega : n / 4096 < 16)]
      rfl
    · exact hc ▸ utf8Step_three (by omega) (by omega) (by omega) r
  · refine ⟨UInt8.ofNat (n / 262144 + 240),
      [followingByte (n / 4096), followingByte (n / 64), followingByte n], ?_, ?_⟩
    · rw [Nat.mod_eq_of_lt (by omega : n / 262144 < 8)]
      rfl
    · exact hc ▸ utf8Step_four (by omega) (by omega) r

/-- Text that is written as UTF-8 is read back, also where there is more fuel than it takes. -/
theorem decodeUtf8With_flatMap (bad : List Char) (hn : s.length ≤ n) :
    decodeUtf8With bad n (s.flatMap String.utf8EncodeChar) = s := by
  induction s generalizing n with
  | nil => cases n <;> rfl
  | cons c s ih =>
    obtain ⟨n, rfl⟩ : ∃ k, n = k + 1 := ⟨n - 1, by simp at hn; omega⟩
    obtain ⟨b, t, he, hs⟩ := utf8Step_utf8EncodeChar c (s.flatMap String.utf8EncodeChar)
    rw [List.flatMap_cons, he, List.cons_append, decodeUtf8With, hs]
    simp only [Nat.add_sub_cancel, List.drop_left, ih (Nat.le_of_succ_le_succ hn)]
    rfl

theorem length_le_flatMap (s : List Char) :
    s.length ≤ (s.flatMap String.utf8EncodeChar).length := by
  induction s with
  | nil => exact Nat.le_refl 0
  | cons c s ih =>
    obtain ⟨b, t, he, -⟩ := utf8Step_utf8EncodeChar c []
    rw [List.flatMap_cons, he]
    simp only [List.length_append, List.length_cons]
    omega

/-- UTF-8 is read exactly: nothing is replaced in the bytes of a text. -/
theorem decodeUtf8_toUTF8 (t : String) : decodeUtf8 t.toUTF8.data.toList = t.toList := by
  have hb : t.toUTF8.data.toList = t.toList.flatMap String.utf8EncodeChar := by
    rw [String.toUTF8, ← String.utf8Encode_toList, List.utf8Encode, List.toList_data_toByteArray]
  rw [hb]
  exact decodeUtf8With_flatMap [replacement] (length_le_flatMap t.toList)

end CallTree.Text
