import CallTree.Proofs.ErrorFree
import CallTree.Proofs.Plain
import Mathlib.Logic.Relation

/-! The plain form of values as a map of values to values: what it gives is plain data, and plain
data it leaves as it is. -/
namespace CallTree

variable {os : Objects} {v : Value} {xs : List Value} {es : List (Value × Value)} {name : String}

/-! ### Plain values -/

/-- Plain data among the values: scalars, lists of plain data, and mappings of texts to plain
data. -/
inductive Value.IsPlain : Value → Prop
  | null : IsPlain .null
  | bool (b : Bool) : IsPlain (.bool b)
  | int (n : Int) : IsPlain (.int n)
  | float (x : Binary64) : IsPlain (.float x)
  | str (s : String) : IsPlain (.str s)
  | list {xs : List Value} (hx : ∀ x ∈ xs, IsPlain x) : IsPlain (.list xs)
  | map {d : Dict Value} (hk : d.Texts) (hd : d.Distinct) (hv : ∀ e ∈ d, IsPlain e.2) :
      IsPlain (.map d)

namespace Value

/-- The plain form of a value, as a value. -/
def plain (os : Objects) (v : Value) : Value := (Plain.render os v).toValue

/-- There is no error in plain data. -/
theorem IsPlain.errorFree (h : v.IsPlain) : v.errorFree = true := by
  induction h with
  | null | bool | int | float | str => rfl
  | list hx ih => exact allErrorFree_iff.mpr ih
  | map hk hd hv ih =>
    refine entriesErrorFree_iff.mpr fun e he => ⟨?_, ih e he⟩
    obtain ⟨t, ht⟩ := hk e.1 (List.mem_map_of_mem he)
    rw [ht]
    rfl

end Value

/-! ### Plain data as values -/

namespace Plain

variable {textOf : String → String} {f f' : String → Plain}

theorem toValues_eq_map (ps : List Plain) : toValues ps = ps.map toValue := by
  induction ps with
  | nil => rfl
  | cons p r ih => rw [toValues, ih, List.map_cons]

theorem toEntries_eq_map (ps : List (String × Plain)) :
    toEntries ps = ps.map fun e => (.str e.1, e.2.toValue) := by
  induction ps with
  | nil => rfl
  | cons e r ih => rw [toEntries, ih, List.map_cons]

theorem ofValues_eq_map (textOf : String → String) (f : String → Plain) (xs : List Value) :
    ofValues textOf f xs = xs.map (ofValue textOf f) := by
  induction xs with
  | nil => rfl
  | cons x r ih => rw [ofValues, ih, List.map_cons]

theorem toEntries_insert (k : String) (p : Plain) (ps : List (String × Plain)) :
    toEntries (insert k p ps) = Dict.insert (.str k) p.toValue (toEntries ps) := by
  induction ps with
  | nil => rfl
  | cons e r ih =>
    obtain ⟨k', p'⟩ := e
    rw [insert, toEntries, Dict.insert, Value.sameKey_str]
    by_cases hk : k' = k
    · simp [hk, toEntries]
    · simp [hk, toEntries, ih]

/-- Entries are brought together under texts as they are under keys of any kind. -/
theorem toEntries_ofEntries (ps : List (String × Plain)) :
    toEntries (ofEntries ps) = Dict.ofList (toEntries ps) := by
  have hfold : ∀ d : List (String × Plain),
      toEntries (ps.foldl (fun d e => insert e.1 e.2 d) d) =
        Dict.insertAll (toEntries d) (toEntries ps) := by
    induction ps with
    | nil => exact fun d => rfl
    | cons e r ih =>
      intro d
      rw [List.foldl_cons, ih, toEntries_insert, toEntries, Dict.insertAll_cons]
  exact hfold []

mutual
/-- Where no mapping has a key twice, plain data is a plain value. -/
theorem isPlain_toValue {p : Plain} (h : Every HasKeysOnce p) : p.toValue.IsPlain := by
  match p with
  | .null => exact .null
  | .bool b => exact .bool b
  | .int n => exact .int n
  | .float x => exact .float x
  | .str s => exact .str s
  | .list ps => exact .list (isPlain_of_mem_toValues h.2)
  | .map ps =>
    refine .map ?_ ?_ (isPlain_of_mem_toEntries h.2)
    · intro k hk
      rw [toEntries_eq_map, Dict.keys, List.map_map] at hk
      obtain ⟨e, -, rfl⟩ := List.mem_map.mp hk
      exact ⟨e.1, rfl⟩
    · rw [toEntries_eq_map]
      refine List.pairwise_map.mpr ((List.pairwise_map.mp h.1).imp fun {a b} hab => ?_)
      rw [Value.sameKey_str, decide_eq_false_iff_not]
      exact hab

theorem isPlain_of_mem_toValues {ps : List Plain} (h : EveryItem HasKeysOnce ps) :
    ∀ x ∈ toValues ps, x.IsPlain := by
  match ps with
  | [] => exact fun x hx => absurd hx List.not_mem_nil
  | p :: r =>
    intro x hx
    rcases List.mem_cons.mp hx with rfl | hx
    · exact isPlain_toValue h.1
    · exact isPlain_of_mem_toValues h.2 x hx

theorem isPlain_of_mem_toEntries {ps : List (String × Plain)} (h : EveryEntry HasKeysOnce ps) :
    ∀ e ∈ toEntries ps, e.2.IsPlain := by
  match ps with
  | [] => exact fun e he => absurd he List.not_mem_nil
  | (k, p) :: r =>
    intro e he
    rcases List.mem_cons.mp he with rfl | he
    · exact isPlain_toValue h.1
    · exact isPlain_of_mem_toEntries h.2 e he
end

end Plain

/-! ### Objects inside values -/

namespace Value

mutual
/-- The objects of the host that stand in a value. In a key they are but part of a text. -/
def objects : Value → List String
  | .object name => [name]
  | .list xs | .tuple xs | .set xs => allObjects xs
  | .map es => entryObjects es
  | _ => []

def allObjects : List Value → List String
  | [] => []
  | x :: r => objects x ++ allObjects r

def entryObjects : List (Value × Value) → List String
  | [] => []
  | (_, v) :: r => objects v ++ entryObjects r
end

end Value

namespace Plain

variable {textOf : String → String} {f f' : String → Plain}

mutual
/-- The plain form of a value depends on the objects in it. -/
theorem ofValue_congr (v : Value) (h : ∀ name ∈ v.objects, f name = f' name) :
    ofValue textOf f v = ofValue textOf f' v := by
  match v with
  | .null | .bool _ | .int _ | .float _ | .str _ | .bytes _ | .moment _ | .function _ | .error _ =>
    rfl
  | .list xs | .tuple xs | .set xs => exact congrArg Plain.list (ofValues_congr xs h)
  | .map es => exact congrArg (fun ps => Plain.map (ofEntries ps)) (ofPairs_congr es h)
  | .object name => exact h name (List.mem_singleton_self name)

theorem ofValues_congr (xs : List Value) (h : ∀ name ∈ Value.allObjects xs, f name = f' name) :
    ofValues textOf f xs = ofValues textOf f' xs := by
  match xs with
  | [] => rfl
  | x :: r =>
    rw [ofValues, ofValues, ofValue_congr x fun name hn => h name (List.mem_append_left _ hn),
      ofValues_congr r fun name hn => h name (List.mem_append_right _ hn)]

theorem ofPairs_congr (es : List (Value × Value))
    (h : ∀ name ∈ Value.entryObjects es, f name = f' name) :
    ofPairs textOf f es = ofPairs textOf f' es := by
  match es with
  | [] => rfl
  | (k, v) :: r =>
    rw [ofPairs, ofPairs, ofValue_congr v fun name hn => h name (List.mem_append_left _ hn),
      ofPairs_congr r fun name hn => h name (List.mem_append_right _ hn)]
end

end Plain

namespace Objects

/-- An object stands in an entry of a mapping of the host. -/
def Holds (os : Objects) (inner outer : String) : Prop :=
  ∃ es, os.entries? (.object outer) = some es ∧ inner ∈ Value.entryObjects es

theorem mem_of_entries? (h : os.entries? (.object name) = some es) : name ∈ os.map (·.1) := by
  rw [entries?] at h
  split at h
  · next hl => exact List.mem_map_of_mem (mem_of_lookup hl)
  · cases h

/-- Where the nesting below an object ends, the object does not stand inside itself. -/
theorem not_inside_itself (h : Acc os.Holds name) : ¬ Relation.TransGen os.Holds name name := by
  have ht : Acc (Relation.TransGen os.Holds) name := h.transGen
  clear h
  induction ht with
  | intro name _ ih => exact fun hloop => ih name hloop hloop

/-- The entries of a value can be written out to the end. A mapping of the host can stand inside
itself, and then they cannot. -/
def IsFinite (os : Objects) : Value → Prop
  | .object name => Acc os.Holds name
  | _ => True

end Objects

namespace Plain

theorem ofObject_of_none (h : os.entries? (.object name) = none) (n : Nat) :
    ofObject os n name = .str (os.textOf name) := by
  cases n with
  | zero => rfl
  | succ n => rw [ofObject, h]

/-- Mappings are unfolded to the end where there are as many steps left as mappings that can still
come up below, of which there is one less with each step. -/
theorem ofObject_eq_of_le (below : Finset String) (ha : Acc os.Holds name)
    (hb : ∀ inner, Relation.ReflTransGen os.Holds inner name →
      (os.entries? (.object inner)).isSome → inner ∈ below)
    {n n' : Nat} (hn : below.card ≤ n) (hn' : below.card ≤ n') :
    ofObject os n name = ofObject os n' name := by
  induction ha generalizing below n n' with
  | intro name ha ih =>
    cases he : os.entries? (.object name) with
    | none => rw [ofObject_of_none he, ofObject_of_none he]
    | some es =>
      have hmem : name ∈ below := hb name .refl (by rw [he]; rfl)
      have hcard : (below.erase name).card + 1 = below.card := Finset.card_erase_add_one hmem
      obtain ⟨k, rfl⟩ : ∃ k, n = k + 1 := ⟨n - 1, by omega⟩
      obtain ⟨k', rfl⟩ : ∃ k, n' = k + 1 := ⟨n' - 1, by omega⟩
      -- Below an entry the mapping itself does not come up again.
      have hsame : ∀ inner ∈ Value.entryObjects es, ofObject os k inner = ofObject os k' inner := by
        intro inner hi
        have hin : os.Holds inner name := ⟨es, he, hi⟩
        refine ih inner hin (below.erase name) ?_ (by omega) (by omega)
        intro deeper hd hs
        refine Finset.mem_erase.mpr ⟨?_, hb deeper (hd.tail hin) hs⟩
        rintro rfl
        exact Objects.not_inside_itself (.intro deeper ha) (.tail' hd hin)
      rw [ofObject, ofObject, he]
      simp only [ofPairs_congr es hsame]

/-- There are steps enough for all objects. -/
theorem ofObject_length_eq (ha : Acc os.Holds name) {n : Nat} (hn : os.length ≤ n) :
    ofObject os n name = ofObject os (os.length + 1) name := by
  have hcard : (os.map (·.1)).toFinset.card ≤ os.length :=
    (List.toFinset_card_le _).trans (List.length_map _).le
  refine ofObject_eq_of_le (os.map (·.1)).toFinset ha ?_ (hcard.trans hn)
    (Nat.le_succ_of_le hcard)
  intro inner _ hs
  obtain ⟨es, he⟩ := Option.isSome_iff_exists.mp hs
  exact List.mem_toFinset.mpr (Objects.mem_of_entries? he)

/-- A mapping has the texts of its keys with the plain forms of its values. -/
theorem render_of_entries (he : os.entries? v = some es) (hf : os.IsFinite v) :
    render os v = .map (ofEntries (es.map fun e => (e.1.text os.textOf, render os e.2))) := by
  cases v with
  | map es' =>
    cases he
    rw [render, ofValue, ofPairs_eq_map]
    rfl
  | object name =>
    have hinner : ∀ inner ∈ Value.entryObjects es,
        ofObject os os.length inner = ofObject os (os.length + 1) inner := by
      intro inner hi
      exact ofObject_length_eq (hf.inv ⟨es, he, hi⟩) le_rfl
    rw [render, ofValue, ofObject, he]
    simp only [ofPairs_congr es hinner]
    rw [ofPairs_eq_map]
    rfl
  | _ => cases he

end Plain

/-! ### Images -/

namespace Value

theorem isPlain_plain (os : Objects) (v : Value) : (v.plain os).IsPlain :=
  Plain.isPlain_toValue (Plain.everyKeysOnce_render os v)

theorem plain_list (os : Objects) (xs : List Value) :
    (list xs).plain os = .list (xs.map (plain os)) := by
  have hr : Plain.render os (list xs) = .list (xs.map (Plain.render os)) :=
    congrArg Plain.list (Plain.ofValues_eq_map _ _ xs)
  rw [plain, hr, Plain.toValue, Plain.toValues_eq_map, List.map_map]
  rfl

theorem plain_of_entries (he : os.entries? v = some es) (hf : os.IsFinite v) :
    v.plain os =
      .map (Dict.ofList (es.map fun e => (.str (e.1.text os.textOf), e.2.plain os))) := by
  rw [plain, Plain.render_of_entries he hf, Plain.toValue, Plain.toEntries_ofEntries,
    Plain.toEntries_eq_map, List.map_map]
  rfl

/-- Plain data is its own plain form. -/
theorem IsPlain.plain_eq (h : v.IsPlain) (os : Objects) : v.plain os = v := by
  induction h with
  | null | bool | int | float | str => rfl
  | list hx ih => rw [plain_list, List.map_congr_left ih, List.map_id']
  | @map d hk hd hv ih =>
    have hsame : ∀ e ∈ d, (Value.str (e.1.text os.textOf), e.2.plain os) = e := by
      intro e he
      obtain ⟨t, ht⟩ := hk e.1 (List.mem_map_of_mem he)
      refine Prod.ext ?_ (ih e he)
      rw [ht]
      rfl
    have hmap : (Value.map d).plain os = _ := plain_of_entries rfl trivial
    rw [hmap, List.map_congr_left hsame, List.map_id', Dict.ofList_of_distinct hd]

end Value

/-- The plain form is a projection onto plain data. Whatever a value has inside, its plain form is
made of scalars, lists, and mappings of texts, and there is no error in it. What is plain already is
its own plain form, so that to take the plain form twice is to take it once. A list, a tuple or a
set gives the list of the plain forms of its items, in their order. A mapping gives a mapping with
the texts of its keys, at the places where they first came up, each with the plain form of the last
value that has this text as its key; so an entry is lost if and only if two keys have one text. -/
theorem plain_form_is_projection (os : Objects) :
    (∀ v : Value, (v.plain os).IsPlain ∧ (v.plain os).errorFree = true) ∧
      (∀ p : Value, p.IsPlain → p.plain os = p) ∧
      (∀ v : Value, (v.plain os).plain os = v.plain os) ∧
      (∀ (v : Value) xs, v = .list xs ∨ v = .tuple xs ∨ v = .set xs →
        v.plain os = .list (xs.map (Value.plain os))) ∧
      ∀ v es, os.entries? v = some es → os.IsFinite v → ∃ d : Dict Value, v.plain os = .map d ∧
        Dict.keys d = Dict.firstKeys (es.map fun e => .str (e.1.text os.textOf)) ∧
        (∀ t, Dict.get? (.str t) d =
          (es.filter fun e => e.1.text os.textOf = t).getLast?.map fun e => e.2.plain os) ∧
        (d.length = es.length ↔ (es.map fun e => e.1.text os.textOf).Nodup) := by
  have hplain := Value.isPlain_plain os
  refine ⟨fun v => ⟨hplain v, (hplain v).errorFree⟩, fun p hp => hp.plain_eq os,
    fun v => (hplain v).plain_eq os, ?_, ?_⟩
  · rintro v xs (rfl | rfl | rfl) <;> exact Value.plain_list os xs
  · intro v es he hf
    refine ⟨_, Value.plain_of_entries he hf, ?_, fun t => Dict.get?_ofList_texts _ _ t es,
      Dict.length_ofList_texts _ _ es⟩
    rw [Dict.keys_ofList, List.map_map]
    rfl

namespace Sample

/-- Mappings one in the other. The outer one has two keys with one text, and errors at two
depths. -/
def folder : Objects :=
  [("index", .mapping [(.int 1, .value (.error CallError.methodError)),
      (.str "pages", .value (.object "pages")),
      (.str "1", .value (.tuple [.error CallError.methodNotFound, .bytes [65]]))]),
    ("pages", .mapping [(.null, .value (.set [.bool true]))])]

def indexEntries : List (Value × Value) :=
  [(.int 1, .error CallError.methodError), (.str "pages", .object "pages"),
    (.str "1", .tuple [.error CallError.methodNotFound, .bytes [65]])]

def indexForm : Dict Value :=
  [(.str "1", .list
      [.map [(.str "error", .str "The method is not found"), (.str "status", .int 404)],
        .str "b'A'"]),
    (.str "pages", .map [(.str "None", .list [.bool true])])]

theorem isFinite_index : folder.IsFinite (.object "index") := by
  have hindex : folder.entries? (.object "index") = some indexEntries := by decide +kernel
  have hpages : folder.entries? (.object "pages") = some [(.null, .set [.bool true])] := by
    decide +kernel
  refine .intro "index" fun inner ⟨es, he, hi⟩ => ?_
  cases hindex.symm.trans he
  obtain rfl : inner = "pages" := List.mem_singleton.mp hi
  refine .intro "pages" fun deeper ⟨es, he, hd⟩ => ?_
  cases hpages.symm.trans he
  cases hd

/-- Of the two keys with one text the first has the place and the second the value, and the rest is
as it was before. -/
theorem index_loses_an_entry :
    folder.entries? (.object "index") = some indexEntries ∧
      folder.IsFinite (.object "index") ∧ ∃ d : Dict Value,
        (Value.object "index").plain folder = .map d ∧ Dict.keys d = Dict.keys indexForm ∧
        Dict.get? (.str "1") d = Dict.get? (.str "1") indexForm ∧
        Dict.get? (.str "pages") d = Dict.get? (.str "pages") indexForm ∧
        d.length ≠ indexEntries.length ∧
        (Value.map d).IsPlain ∧ (Value.map d).plain folder = .map d := by
  have he : folder.entries? (.object "index") = some indexEntries := by decide +kernel
  obtain ⟨hplain, hfixed, -, -, hmap⟩ := plain_form_is_projection folder
  obtain ⟨d, hd, hkeys, hget, hlength⟩ := hmap _ _ he isFinite_index
  have hp : (Value.map d).IsPlain := hd ▸ (hplain (.object "index")).1
  refine ⟨he, isFinite_index, d, hd, hkeys.trans ?_, (hget "1").trans ?_, (hget "pages").trans ?_,
    fun hl => absurd (hlength.mp hl) ?_, hp, hfixed _ hp⟩
  all_goals decide +kernel

end Sample

end CallTree
