import CallTree.Document.Printer
import CallTree.Document.Reader
import CallTree.Proofs.Document.Toml.Render

/-! Which entries of a result are lost in TOML. -/
namespace CallTree.Toml
open scoped Number

variable {os : Objects} {vs : List (Value × Value)} {k : String}

theorem role_eq_absent_iff {v : Plain} : role v = .absent ↔ v = .null := by
  match v with
  | .null => simp [role]
  | .map _ | .bool _ | .int _ | .float _ | .str _ => simp [role]
  | .list xs =>
    rw [role]
    split <;> simp

/-- The entries that are written are those of values other than null. -/
theorem exists_written_iff (hs : ∀ e ∈ vs, ∃ k, e.1 = .str k) :
    (∃ p, (k, p) ∈ vs.map (fun e => (e.1.text os.textOf, Plain.render os e.2)) ∧ role p ≠ .absent) ↔
      ∃ v, (.str k, v) ∈ vs ∧ v ≠ .null := by
  constructor
  · rintro ⟨p, hp, hr⟩
    obtain ⟨⟨k', v⟩, hm, he⟩ := List.mem_map.mp hp
    obtain ⟨x, rfl⟩ := hs _ hm
    cases he
    rw [Ne, role_eq_absent_iff, Plain.render_eq_null_iff] at hr
    exact ⟨v, hm, hr⟩
  · rintro ⟨v, hm, hv⟩
    refine ⟨Plain.render os v, List.mem_map.mpr ⟨_, hm, rfl⟩, ?_⟩
    rwa [Ne, role_eq_absent_iff, Plain.render_eq_null_iff]

end CallTree.Toml

namespace CallTree.Document

/-- Of a result, TOML loses the entries that are null, whatever else is in it: its text is that of
the result without them. If the text is read back, it has all its other entries. -/
theorem null_entries_are_lost {os : Objects} {pretty : Bool} {root : String}
    {mediaType : Option String} {vs : List (Value × Value)} {es : List (String × Plain)}
    (hs : ∀ e ∈ vs, ∃ k, e.1 = .str k) (hd : Dict.Distinct vs)
    (hv : Plain.render os (.map vs) = .map es) :
    (∀ text, print os (some "toml") pretty root (.map vs) = .ok text →
      Toml.render (Toml.present es) = .ok text) ∧
    ∀ T, Toml.AreEntries T es → ∃ text d,
      print os (some "toml") pretty root (.map vs) = .ok text ∧
      read (some "toml") mediaType (.str text) = .ok (.map d) ∧
      ∀ k, Dict.contains (.str k) d = true ↔ ∃ v, (.str k, v) ∈ vs ∧ v ≠ .null := by
  have hw : formatNamed (some "toml") = .ok .toml := rfl
  have hprint : print os (some "toml") pretty root (.map vs) = Toml.render es := by
    rw [print, hw, hv]
    rfl
  refine ⟨fun text h => Toml.render_present (hprint ▸ h), fun T h => ?_⟩
  have honce : (Plain.map es).Every Plain.HasKeysOnce :=
    hv ▸ Plain.everyKeysOnce_render os (.map vs)
  obtain ⟨text, d, ht, hr, hkeys⟩ := Toml.render_ok ⟨h, honce⟩
  refine ⟨text, d, hprint.trans ht, ?_, fun k => ?_⟩
  · have hf : formatOf (some "toml") mediaType text = .ok .toml := rfl
    rw [read_str, hf]
    exact hr
  · rw [Plain.render_map hs hd] at hv
    cases hv
    rw [hkeys, Toml.exists_written_iff hs]

/-- A result with tables in tables, an array of tables, an error, quotes and backslashes, a number
with a point, and null inside and outside. -/
def family : List (Value × Value) :=
  [(.str "home", .map [(.str "city", .str "Bonn"), (.str "floor", .null),
      (.str "place", .map [(.str "x", .int (-3))])]),
    (.str "name", .str "Jane"), (.str "age", .null),
    (.str "height", .float ⟨0x3FFB333333333333⟩), (.str "tags", .list [.int 1, .int 2]),
    (.str "the \"kids\"", .list [.str "Ann, \"Annie\"", .str "Joe\\Jo"]),
    (.str "pets", .list [.map [(.str "name", .str "Rex")], .map [(.str "chip", .null)]]),
    (.str "last call", .error ⟨.methodError, "no path"⟩)]

def familyEntries : List (String × Plain) :=
  [("home", .map [("city", .str "Bonn"), ("floor", .null), ("place", .map [("x", .int (-3))])]),
    ("name", .str "Jane"), ("age", .null),
    ("height", .float ⟨0x3FFB333333333333⟩), ("tags", .list [.int 1, .int 2]),
    ("the \"kids\"", .list [.str "Ann, \"Annie\"", .str "Joe\\Jo"]),
    ("pets", .list [.map [("name", .str "Rex")], .map [("chip", .null)]]),
    ("last call", .map [("error", .str "no path"), ("status", .int 500)])]

theorem family_keeps_all_but_age :
    (∀ e ∈ family, ∃ k, e.1 = .str k) ∧ Dict.Distinct family ∧
      Plain.render [] (.map family) = .map familyEntries ∧
      Toml.AreEntries (· ∈ ["home", "place", "last call"]) familyEntries ∧ ∃ text d,
        print [] (some "toml") true rootName (.map family) = .ok text ∧
        Toml.render (Toml.present familyEntries) = .ok text ∧
        read (some "toml") none (.str text) = .ok (.map d) ∧
        ∀ k, Dict.contains (.str k) d = true ↔ ∃ v, (.str k, v) ∈ family ∧ v ≠ .null := by
  have hs : ∀ e ∈ family, ∃ k, e.1 = .str k := by simp [family]
  have hd : Dict.Distinct family := by
    unfold Dict.Distinct
    decide
  have hv : Plain.render [] (.map family) = .map familyEntries := by rfl
  have h : Toml.AreEntries (· ∈ ["home", "place", "last call"]) familyEntries := by
    decide +kernel
  obtain ⟨hlost, hkept⟩ :=
    @null_entries_are_lost [] true rootName none family familyEntries hs hd hv
  obtain ⟨text, d, ht, hr, hkeys⟩ := hkept _ h
  exact ⟨hs, hd, hv, h, text, d, ht, hlost text ht, hr, hkeys⟩

def person : Value := .map [(.str "name", .str "Jane"), (.str "age", .null)]

/-- The age is there before it is written, and not any more when it is read. -/
theorem age_is_lost :
    print [] (some "toml") true rootName person = .ok "name = \"Jane\"\n" ∧
      read (some "toml") none (.str "name = \"Jane\"\n") = .ok (.map [(.str "name", .str "Jane")]) ∧
      Dict.contains (.str "age") [((.str "name" : Value), (.str "Jane" : Value))] = false := by
  refine ⟨by rfl, by rfl, by decide⟩

end CallTree.Document
