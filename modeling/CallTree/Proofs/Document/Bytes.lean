import CallTree.Document.Reader
import CallTree.Proofs.Document.MediaType
import CallTree.Proofs.Utf8

/-! Documents as bytes. They are read as their text is, where their charset is the one that they are
written in. -/
namespace CallTree

namespace Text.Charset

variable {name name' : List Char} {t : List Char}

theorem nameChar_toLower (c : Char) : nameChar c.toLower = nameChar c := by
  by_cases h : c.toNat < 128
  · have hall : ∀ n < 128, nameChar (Char.ofNat n).toLower = nameChar (Char.ofNat n) := by decide
    have hc := hall c.toNat h
    rwa [Char.ofNat_toNat] at hc
  · have hz : ¬ (c.val ≥ 'A'.val ∧ c.val ≤ 'Z'.val) := by
      rintro ⟨-, hz⟩
      exact h (Nat.lt_of_le_of_lt (UInt32.le_iff_toNat_le.mp hz) (by decide))
    have hc : c.toLower = c := dif_neg hz
    rw [hc]

/-- Charsets are named in letters of any size. -/
theorem ofName?_congr (h : name.map Char.toLower = name'.map Char.toLower) :
    ofName? name = ofName? name' := by
  have hmark : ∀ s : List Char, s.map nameChar = (s.map Char.toLower).map nameChar := by
    intro s
    rw [List.map_map]
    exact List.map_congr_left fun c _ => (nameChar_toLower c).symm
  have hn : normalName name = normalName name' := by
    rw [normalName, hmark name, h, ← hmark, normalName]
  rw [ofName?, ofName?, hn]

/-- Text of code points up to 255 as bytes, one for each character. -/
def latin1Bytes (t : List Char) : List UInt8 := t.map fun c => UInt8.ofNat c.toNat

theorem decode_latin1Bytes (h : ∀ c ∈ t, c.toNat ≤ 255) : decode .latin1 (latin1Bytes t) = t := by
  rw [decode, latin1Bytes, List.map_map]
  refine (List.map_congr_left fun c hc => ?_).trans (List.map_id t)
  have hb : (UInt8.ofNat c.toNat).toNat = c.toNat :=
    UInt8.toNat_ofNat_of_lt' (Nat.lt_succ_of_le (h c hc))
  rw [Function.comp_apply, hb, Char.ofNat_toNat]
  rfl

end Text.Charset

namespace MediaType

variable {further : Codecs} {mediaType : Option String} {name : List Char}

/-- A name under which a document is read as UTF-8: an empty one, one of UTF-8, and one that is not
known. -/
def ReadsUtf8 (further : Codecs) (name : List Char) : Prop :=
  name = [] ∨ Text.Charset.ofName? name = some .utf8 ∨ further.find? name = none

/-- UTF-8 may be written in letters of any size, and with or without quotes. -/
theorem readsUtf8_of_quoted {value : List Char} (further : Codecs)
    (h : name.map Char.toLower = "utf-8".toList) (hq : Quoted name value) :
    ReadsUtf8 further (unquote value) := by
  have hmem : ∀ c ∈ name, c.toLower ∈ "utf-8".toList := fun c hc => h ▸ List.mem_map_of_mem hc
  have hd : '"' ∉ name := fun hc => absurd (hmem _ hc) (by decide)
  have hs : '\'' ∉ name := fun hc => absurd (hmem _ hc) (by decide)
  have hl : name.map Char.toLower = "utf-8".toList.map Char.toLower := h
  rw [hq.unquote_eq hd hs]
  refine Or.inr (Or.inl ?_)
  rw [Text.Charset.ofName?_congr hl]
  decide

theorem decoder_of_zero (hn : Names mediaType name) (hz : '\x00' ∈ name) :
    decoder further mediaType = .error .badValue := by
  rw [decoder, (charsetName?_eq_some_iff mediaType name).mpr hn]
  cases name with
  | nil => cases hz
  | cons c r => exact if_pos hz

theorem decoder_of_names (hn : Names mediaType name) (hz : '\x00' ∉ name) :
    decoder further mediaType =
      .ok (if name = [] then decoderOf .utf8
        else (further.find? name).getD (decoderOf .utf8)) := by
  rw [decoder, (charsetName?_eq_some_iff mediaType name).mpr hn]
  cases name with
  | nil => rfl
  | cons c r => exact if_neg hz

theorem find?_of_ofName? {c : Text.Charset} (h : Text.Charset.ofName? name = some c) :
    further.find? name = some (decoderOf c) := by
  rw [Codecs.find?, h]

/-- A document is read as UTF-8 where no charset is named, and under the names for that. -/
theorem decoder_of_readsUtf8
    (h : ∀ name, Names mediaType name → '\x00' ∉ name ∧ ReadsUtf8 further name) :
    decoder further mediaType = .ok (decoderOf .utf8) := by
  cases hn : mediaType.bind fun t => charsetName? t.toList with
  | none => rw [decoder, hn]
  | some name =>
    have hnames := (charsetName?_eq_some_iff mediaType name).mp hn
    obtain ⟨hz, hr⟩ := h name hnames
    rw [decoder_of_names hnames hz]
    split
    · rfl
    · rcases hr with he | hu | hu
      · contradiction
      · rw [find?_of_ofName? hu, Option.getD_some]
      · rw [hu, Option.getD_none]

theorem decoder_of_latin1 (hn : Names mediaType name) (hz : '\x00' ∉ name)
    (hl : Text.Charset.ofName? name = some .latin1) :
    decoder further mediaType = .ok (decoderOf .latin1) := by
  have he : name ≠ [] := by
    rintro rfl
    revert hl
    decide
  rw [decoder_of_names hn hz, if_neg he, find?_of_ofName? hl, Option.getD_some]

end MediaType

namespace Document

open MediaType

variable {further : Codecs} {format mediaType : Option String} {bs : List UInt8}

/-- Bytes that are decoded to a text are read as the text is. -/
theorem readBy_bytes {c : Text.Charset} {t : String}
    (hd : decoder further mediaType = .ok (decoderOf c)) (ht : c.decode bs = t.toList) :
    readBy further format mediaType (.bytes bs) = readBy further format mediaType (.str t) := by
  have htext : textOf further mediaType (.bytes bs) = .ok t := by
    rw [textOf, hd]
    exact congrArg Except.ok (by rw [ht, String.ofList_toList])
  rw [readBy, htext]
  rfl

theorem readBy_bytes_of_error {f : Fault} (hd : decoder further mediaType = .error f) :
    readBy further format mediaType (.bytes bs) = .error f := by
  have htext : textOf further mediaType (.bytes bs) = .error f := by
    rw [textOf, hd]
    rfl
  rw [readBy, htext]
  rfl

/-- Whatever further charsets are known, the bytes of a text are read as the text is, with the same
value or the same fault: in UTF-8 where the media type names no charset, or names one by which
documents are read as UTF-8, and in Latin 1 where it names that. A name with a zero character is no
name of a charset, but it is not taken for an unknown one: bytes are not read then at all. -/
theorem bytes_are_read_as_their_text (further : Codecs) (format mediaType : Option String)
    (t : String) :
    ((∀ name, Names mediaType name → '\x00' ∉ name ∧ ReadsUtf8 further name) →
        readBy further format mediaType (.bytes t.toUTF8.data.toList) =
          readBy further format mediaType (.str t)) ∧
      (∀ name, Names mediaType name → '\x00' ∉ name → Text.Charset.ofName? name = some .latin1 →
        (∀ c ∈ t.toList, c.toNat ≤ 255) →
          readBy further format mediaType (.bytes (Text.Charset.latin1Bytes t.toList)) =
            readBy further format mediaType (.str t)) ∧
      (∀ name bs, Names mediaType name → '\x00' ∈ name →
        readBy further format mediaType (.bytes bs) = .error .badValue) ∧
      ∀ name value, name.map Char.toLower = "utf-8".toList → Quoted name value →
        ReadsUtf8 further (unquote value) := by
  refine ⟨?_, ?_, ?_, fun _ _ => readsUtf8_of_quoted further⟩
  · intro h
    exact readBy_bytes (decoder_of_readsUtf8 h) (Text.decodeUtf8_toUTF8 t)
  · intro name hn hz hl ht
    exact readBy_bytes (decoder_of_latin1 hn hz hl) (Text.Charset.decode_latin1Bytes ht)
  · intro name bs hn hz
    exact readBy_bytes_of_error (decoder_of_zero hn hz)

/-- The name of the charset is one zero character. The text of the document would be read. -/
theorem zero_in_charset_breaks :
    Names (some "application/json; charset=\x00") ['\x00'] ∧
      Text.Charset.ofName? ['\x00'] = none ∧
      read none (some "application/json; charset=\x00")
        (.bytes "\x7b\"a\": 1\x7d".toUTF8.data.toList) = .error .badValue ∧
      read none (some "application/json; charset=\x00") (.str "\x7b\"a\": 1\x7d") =
        .ok (.map [(.str "a", .int 1)]) := by
  have hn : Names (some "application/json; charset=\x00") ['\x00'] :=
    (charsetName?_eq_some_iff _ _).mp (by decide +kernel)
  refine ⟨hn, by decide, ?_, by decide +kernel⟩
  exact readBy_bytes_of_error (decoder_of_zero hn (by decide))

/-- A document with letters that are one byte in Latin 1 and two in UTF-8. -/
def umlauts : String := "\x7b\"größe\": 1\x7d"

theorem umlauts_are_read_from_bytes :
    Names (some "text/json; Charset = \"UTF-8\"; q=1") "UTF-8".toList ∧
      read none (some "text/json; Charset = \"UTF-8\"; q=1")
        (.bytes umlauts.toUTF8.data.toList) = .ok (.map [(.str "größe", .int 1)]) ∧
      Names (some "charset=latin-1") "latin-1".toList ∧
      read (some "json") (some "charset=latin-1")
        (.bytes (Text.Charset.latin1Bytes umlauts.toList)) =
          .ok (.map [(.str "größe", .int 1)]) := by
  have hu : Names (some "text/json; Charset = \"UTF-8\"; q=1") "UTF-8".toList :=
    (charsetName?_eq_some_iff _ _).mp (by decide +kernel)
  have hl : Names (some "charset=latin-1") "latin-1".toList :=
    (charsetName?_eq_some_iff _ _).mp (by decide +kernel)
  have hall : (umlauts.toList.all fun c => c.toNat ≤ 255) = true := by decide +kernel
  have hsmall : ∀ c ∈ umlauts.toList, c.toNat ≤ 255 := by
    intro c hc
    exact of_decide_eq_true (List.all_eq_true.mp hall c hc)
  obtain ⟨hutf8, -, -, hreads⟩ := bytes_are_read_as_their_text (fun _ => none) none
    (some "text/json; Charset = \"UTF-8\"; q=1") umlauts
  obtain ⟨-, hlatin1, -, -⟩ := bytes_are_read_as_their_text (fun _ => none) (some "json")
    (some "charset=latin-1") umlauts
  refine ⟨hu, ?_, hl, ?_⟩
  · refine (hutf8 ?_).trans (by decide +kernel)
    intro name hn
    rw [hn.unique hu]
    exact ⟨by decide, hreads "UTF-8".toList _ (by decide) .double⟩
  · exact (hlatin1 _ hl (by decide) (by decide) hsmall).trans (by decide +kernel)

end Document
end CallTree
