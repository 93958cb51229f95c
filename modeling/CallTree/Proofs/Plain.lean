import CallTree.Plain
import CallTree.Proofs.Dict
import Mathlib.Data.List.Nodup

/-! Plain data part by part: what holds of all of it, and that no mapping in it has a key twice. -/
namespace CallTree.Plain

variable {P Q : Plain → Prop} {es : List (String × Plain)} {k : String} {v p : Plain}

mutual
/-- What holds of plain data and of all the data in it. -/
def Every (P : Plain → Prop) : Plain → Prop
  | .list xs => P (.list xs) ∧ EveryItem P xs
  | .map es => P (.map es) ∧ EveryEntry P es
  | p => P p

def EveryItem (P : Plain → Prop) : List Plain → Prop
  | [] => True
  | x :: r => Every P x ∧ EveryItem P r

def EveryEntry (P : Plain → Prop) : List (String × Plain) → Prop
  | [] => True
  | (_, v) :: r => Every P v ∧ EveryEntry P r
end

theorem everyItem_iff {xs : List Plain} : EveryItem P xs ↔ ∀ x ∈ xs, Every P x := by
  induction xs with
  | nil => simp [EveryItem]
  | cons x r ih => simp [EveryItem, ih]

theorem everyEntry_iff : EveryEntry P es ↔ ∀ e ∈ es, Every P e.2 := by
  induction es with
  | nil => simp [EveryEntry]
  | cons e r ih => simp [EveryEntry, ih]

/-- No fraction, which has no text that every reader takes for the same number. -/
def IsExact : Plain → Prop
  | .float _ => False
  | _ => True

/-- Each key of a mapping stands there once. -/
def HasKeysOnce : Plain → Prop
  | .map es => (es.map (·.1)).Nodup
  | _ => True

/-! ### Keys -/

theorem keys_insert (k : String) (v : Plain) (es : List (String × Plain)) :
    (insert k v es).map (·.1) =
      if k ∈ es.map (·.1) then es.map (·.1) else es.map (·.1) ++ [k] := by
  induction es with
  | nil => rfl
  | cons e r ih =>
    obtain ⟨k', v'⟩ := e
    rw [insert]
    by_cases hk : k' = k
    · simp [hk]
    · rw [if_neg hk, List.map_cons, ih, List.map_cons]
      simp only [List.mem_cons, Ne.symm hk, false_or]
      split <;> rfl

theorem nodup_keys_insert (h : (es.map (·.1)).Nodup) (k : String) (v : Plain) :
    ((insert k v es).map (·.1)).Nodup := by
  rw [keys_insert]
  split
  · exact h
  · next hk =>
    rw [← List.concat_eq_append]
    exact h.concat hk

theorem insert_of_not_mem (h : k ∉ es.map (·.1)) (v : Plain) : insert k v es = es ++ [(k, v)] := by
  induction es with
  | nil => rfl
  | cons e r ih =>
    obtain ⟨k', v'⟩ := e
    rw [List.map_cons, List.mem_cons, not_or] at h
    rw [insert, if_neg (Ne.symm h.1), ih h.2, List.cons_append]

theorem everyEntry_insert (h : EveryEntry P es) (hv : Every P v) (k : String) :
    EveryEntry P (insert k v es) := by
  induction es with
  | nil => exact ⟨hv, trivial⟩
  | cons e r ih =>
    obtain ⟨k', v'⟩ := e
    rw [insert]
    split
    · exact ⟨hv, h.2⟩
    · exact ⟨h.1, ih h.2⟩

theorem nodup_keys_ofEntries (es : List (String × Plain)) :
    ((ofEntries es).map (·.1)).Nodup := by
  have hfold : ∀ d : List (String × Plain), (d.map (·.1)).Nodup →
      ((es.foldl (fun d e => insert e.1 e.2 d) d).map (·.1)).Nodup := by
    induction es with
    | nil => exact fun d hd => hd
    | cons e r ih => exact fun d hd => ih _ (nodup_keys_insert hd e.1 e.2)
  exact hfold [] List.nodup_nil

theorem everyEntry_ofEntries (h : EveryEntry P es) : EveryEntry P (ofEntries es) := by
  have hfold : ∀ d : List (String × Plain), EveryEntry P d →
      EveryEntry P (es.foldl (fun d e => insert e.1 e.2 d) d) := by
    induction es with
    | nil => exact fun d hd => hd
    | cons e r ih => exact fun d hd => ih h.2 _ (everyEntry_insert hd h.1 e.1)
  exact hfold [] trivial

/-- Entries with keys of their own stay as they are. -/
theorem ofEntries_of_nodup (h : (es.map (·.1)).Nodup) : ofEntries es = es := by
  have hfold : ∀ d : List (String × Plain), ((d ++ es).map (·.1)).Nodup →
      es.foldl (fun d e => insert e.1 e.2 d) d = d ++ es := by
    induction es with
    | nil => exact fun d _ => (List.append_nil d).symm
    | cons e r ih =>
      intro d hd
      have hk : e.1 ∉ d.map (·.1) := by
        intro hm
        rw [List.map_append, List.map_cons] at hd
        exact List.disjoint_of_nodup_append hd hm List.mem_cons_self
      have hr : (r.map (·.1)).Nodup := (List.nodup_cons.mp (List.map_cons ▸ h)).2
      rw [List.foldl_cons, insert_of_not_mem hk, ih hr, List.append_assoc]
      · rfl
      · simpa using hd
  exact hfold [] h

/-! ### Values as plain data -/

theorem everyKeysOnce_ofEntries (h : EveryEntry HasKeysOnce es) :
    Every HasKeysOnce (.map (ofEntries es)) :=
  ⟨nodup_keys_ofEntries es, everyEntry_ofEntries h⟩

section

variable {textOf : String → String} {object : String → Plain}

mutual
theorem everyKeysOnce_ofValue (ho : ∀ name, Every HasKeysOnce (object name)) (v : Value) :
    Every HasKeysOnce (ofValue textOf object v) := by
  match v with
  | .null | .bool _ | .int _ | .float _ | .str _ | .bytes _ | .moment _ | .function _ => trivial
  | .error e => exact ⟨by simp [HasKeysOnce], trivial, trivial, trivial⟩
  | .list xs | .tuple xs | .set xs => exact ⟨trivial, everyKeysOnce_ofValues ho xs⟩
  | .map es => exact everyKeysOnce_ofEntries (everyKeysOnce_ofPairs ho es)
  | .object name => exact ho name

theorem everyKeysOnce_ofValues (ho : ∀ name, Every HasKeysOnce (object name)) (xs : List Value) :
    EveryItem HasKeysOnce (ofValues textOf object xs) := by
  match xs with
  | [] => trivial
  | x :: r => exact ⟨everyKeysOnce_ofValue ho x, everyKeysOnce_ofValues ho r⟩

theorem everyKeysOnce_ofPairs (ho : ∀ name, Every HasKeysOnce (object name))
    (es : List (Value × Value)) :
    EveryEntry HasKeysOnce (ofPairs textOf object es) := by
  match es with
  | [] => trivial
  | (k, v) :: r => exact ⟨everyKeysOnce_ofValue ho v, everyKeysOnce_ofPairs ho r⟩
end

end

theorem everyKeysOnce_ofObject (os : Objects) (n : Nat) (name : String) :
    Every HasKeysOnce (ofObject os n name) := by
  induction n generalizing name with
  | zero => trivial
  | succ n ih =>
    rw [ofObject]
    split
    · exact everyKeysOnce_ofEntries (everyKeysOnce_ofPairs ih _)
    · trivial

/-- In the plain form of a value no mapping has a key twice. -/
theorem everyKeysOnce_render (os : Objects) (v : Value) : Every HasKeysOnce (render os v) :=
  everyKeysOnce_ofValue (everyKeysOnce_ofObject os (os.length + 1)) v

theorem ofPairs_eq_map (textOf : String → String) (object : String → Plain)
    (vs : List (Value × Value)) :
    ofPairs textOf object vs = vs.map fun e => (e.1.text textOf, ofValue textOf object e.2) := by
  induction vs with
  | nil => rfl
  | cons e r ih => rw [ofPairs, ih, List.map_cons]

/-- A mapping with strings as keys keeps its entries. -/
theorem render_map {os : Objects} {vs : List (Value × Value)} (hs : ∀ e ∈ vs, ∃ k, e.1 = .str k)
    (hd : Dict.Distinct vs) :
    render os (.map vs) = .map (vs.map fun e => (e.1.text os.textOf, render os e.2)) := by
  have hkeys : ((vs.map fun e => (e.1.text os.textOf, render os e.2)).map (·.1)).Nodup := by
    rw [List.map_map]
    refine List.pairwise_map.mpr (hd.imp_of_mem fun {a b} ha hb hab => ?_)
    obtain ⟨k, hk⟩ := hs a ha
    obtain ⟨k', hk'⟩ := hs b hb
    rw [hk, hk', Value.sameKey_str, decide_eq_false_iff_not] at hab
    simpa [hk, hk', Value.text] using hab
  rw [render, ofValue, ofPairs_eq_map]
  exact congrArg Plain.map (ofEntries_of_nodup hkeys)

theorem render_eq_null_iff {os : Objects} {v : Value} : render os v = .null ↔ v = .null := by
  refine ⟨fun h => ?_, fun h => h ▸ rfl⟩
  match v with
  | .null => rfl
  | .object name =>
    rw [render, ofValue, ofObject] at h
    split at h <;> cases h
  | .bool _ | .int _ | .float _ | .str _ | .bytes _ | .moment _ | .function _ | .error _ | .list _
  | .tuple _ | .set _ | .map _ => cases h

end CallTree.Plain
