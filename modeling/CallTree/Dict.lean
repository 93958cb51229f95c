import CallTree.Value

/-! Mappings with their keys in the order of first insertion. -/
namespace CallTree

/-- The entries of a mapping, in order. -/
abbrev Dict (α : Type) := List (Value × α)

namespace Dict

variable {α : Type}

def get? (k : Value) : Dict α → Option α
  | [] => none
  | (k', v) :: r => if Value.sameKey k' k then some v else get? k r

/-- A known key keeps its place and gets the new value; a new key goes to the end. -/
def insert (k : Value) (v : α) : Dict α → Dict α
  | [] => [(k, v)]
  | (k', v') :: r => if Value.sameKey k' k then (k', v) :: r else (k', v') :: insert k v r

/-- Inserts the entries one after the other. -/
def insertAll (d : Dict α) (entries : List (Value × α)) : Dict α :=
  entries.foldl (fun d e => insert e.1 e.2 d) d

def ofList (entries : List (Value × α)) : Dict α := insertAll [] entries

def keys (d : Dict α) : List Value := d.map (·.1)

def contains (k : Value) (d : Dict α) : Bool := (get? k d).isSome

@[simp] theorem insertAll_nil (d : Dict α) : insertAll d [] = d := rfl

@[simp] theorem insertAll_cons (d : Dict α) (e : Value × α) (es : List (Value × α)) :
    insertAll d (e :: es) = insertAll (insert e.1 e.2 d) es := rfl

theorem insertAll_append (d : Dict α) (es fs : List (Value × α)) :
    insertAll d (es ++ fs) = insertAll (insertAll d es) fs := by
  simp [insertAll]

theorem get?_insert (k k' : Value) (v : α) (d : Dict α) :
    get? k' (insert k v d) = if Value.sameKey k k' then some v else get? k' d := by
  induction d with
  | nil => simp [insert, get?]
  | cons e r ih =>
    obtain ⟨k₀, v₀⟩ := e
    simp only [insert, get?, Value.sameKey, decide_eq_true_eq] at ih ⊢
    split <;> rename_i h
    · simp only [get?, Value.sameKey, h, decide_eq_true_eq]
      split <;> rfl
    · simp only [get?, Value.sameKey, decide_eq_true_eq, ih]
      split <;> rename_i h'
      · simp [← h', Ne.symm h]
      · rfl

end Dict
end CallTree
