import CallTree.Proofs.Document.Toml.Escapes

/-! Values on one line of a TOML document: what they are written as, and which of them are read as
what they are. -/
namespace CallTree.Toml
open scoped Number

variable {s : String} {k : String} {p : Plain} {c : Char}

theorem ok_bind {α β : Type} (a : α) (f : α → Except Fault β) : (Except.ok a >>= f) = f a := rfl

theorem of_bind_eq_ok {α β : Type} {x : Except Fault α} {f : α → Except Fault β} {b : β}
    (h : (x >>= f) = .ok b) : ∃ a, x = .ok a ∧ f a = .ok b := by
  cases x with
  | error e => cases h
  | ok a => exact ⟨a, rfl, h⟩

/-- What a line can hold. -/
inductive Inline
  | bool (b : Bool)
  | int (n : Int)
  | float (x : Binary64)
  | text (s : String)
  | list (xs : List Inline)

/-- The key of an entry as it stands in its line. -/
def keyText (k : String) : List Char := if isBareName k then k.toList else stringText k

/-- A name in quotes, with no character of it escaped. -/
def quotedText (s : String) : List Char := '"' :: (s.toList ++ ['"'])

/-- A name as it stands in a header. -/
def nameText (k : String) : List Char := if isBareName k then k.toList else quotedText k

/-- What is read again for a number with a point. -/
def readNumber (x : Binary64) : Binary64 :=
  let (negative, r) := Number.splitSign (numberLayout.render x).toList
  let y := (Number.readFloat? r).getD .nan
  if negative then fromZero y else y

namespace Inline

mutual
/-- What is left of plain data on one line: of null a word, and of a table its names. -/
def ofPlain : Plain → Inline
  | .null => .text "None"
  | .bool b => .bool b
  | .int n => .int n
  | .float x => .float x
  | .str s => .text s
  | .list xs => .list (ofPlains xs)
  | .map es => .list (es.map fun e => .text e.1)

def ofPlains : List Plain → List Inline
  | [] => []
  | x :: r => ofPlain x :: ofPlains r
end

mutual
def chars : Inline → List Char
  | .bool b => if b then "true".toList else "false".toList
  | .int n => (toString n).toList
  | .float x => (numberLayout.render x).toList
  | .text s => stringText s
  | .list xs => '[' :: (itemChars xs ++ [']'])

def itemChars : List Inline → List Char
  | [] => []
  | x :: r => ' ' :: (chars x ++ ',' :: itemChars r)
end

mutual
/-- What is read again. -/
def toValue : Inline → Value
  | .bool b => .bool b
  | .int n => .int n
  | .float x => .float (readNumber x)
  | .text s => .str (String.ofList (readText s))
  | .list xs => .list (toValues xs)

def toValues : List Inline → List Value
  | [] => []
  | x :: r => toValue x :: toValues r
end

def IsNumber : Inline → Prop
  | .int _ | .float _ => True
  | _ => False

def kind : Inline → Kind
  | .bool _ => .bool
  | .int _ => .int
  | .float _ => .float
  | .text _ => .text
  | .list _ => .array

end Inline

/-! ### What is read again -/

/-- Text that can be an item: no bracket is written for it, nor a comma with only blank before
it. -/
structure IsItemText (s : String) : Prop where
  isText : IsText s
  noBracket : ∀ c ∈ inQuotes s, c ≠ '[' ∧ c ≠ ']'
  noComma : (Text.trimLeft (inQuotes s)).head? ≠ some ','

instance (s : String) : Decidable (IsItemText s) :=
  decidable_of_iff (IsText s ∧ (∀ c ∈ inQuotes s, c ≠ '[' ∧ c ≠ ']') ∧
      (Text.trimLeft (inQuotes s)).head? ≠ some ',')
    ⟨fun h => ⟨h.1, h.2.1, h.2.2⟩, fun h => ⟨h.isText, h.noBracket, h.noComma⟩⟩

/-- A name without the marks of keys and headers, which is written as it is. -/
def IsName (k : String) : Prop :=
  k ≠ "" ∧ ∀ c ∈ k.toList, isClean c = true ∧ c ≠ '.' ∧ c ≠ '=' ∧ c ≠ ']'

instance (k : String) : Decidable (IsName k) :=
  inferInstanceAs (Decidable (k ≠ "" ∧
    ∀ c ∈ k.toList, isClean c = true ∧ c ≠ '.' ∧ c ≠ '=' ∧ c ≠ ']'))

namespace Inline

mutual
/-- What can be an item of a list: items of a list are of one kind. -/
def IsItem : Inline → Prop
  | .text s => IsItemText s
  | .list xs => (∃ k : Kind, ∀ x ∈ xs, x.kind = k) ∧ AreItems xs
  | _ => True

def AreItems : List Inline → Prop
  | [] => True
  | x :: r => IsItem x ∧ AreItems r
end

/-- What can be the value of an entry. -/
def IsEntry : Inline → Prop
  | .text s => IsText s
  | x => IsItem x

theorem exists_kind_iff {xs : List Inline} :
    (∃ k : Kind, ∀ x ∈ xs, x.kind = k) ↔ ∀ x ∈ xs, ∀ y ∈ xs, x.kind = y.kind := by
  constructor
  · rintro ⟨k, h⟩ x hx y hy
    rw [h x hx, h y hy]
  · intro h
    cases xs with
    | nil => exact ⟨.bool, by simp⟩
    | cons x r => exact ⟨x.kind, fun y hy => h y hy x List.mem_cons_self⟩

mutual
def decideItem : (x : Inline) → Decidable x.IsItem
  | .bool _ | .int _ | .float _ => isTrue trivial
  | .text s => inferInstanceAs (Decidable (IsItemText s))
  | .list xs => @instDecidableAnd _ _ (decidable_of_iff' _ exists_kind_iff) (decideItems xs)

def decideItems : (xs : List Inline) → Decidable (AreItems xs)
  | [] => isTrue trivial
  | x :: r => @instDecidableAnd _ _ (decideItem x) (decideItems r)
end

instance : DecidablePred IsEntry
  | .text s => inferInstanceAs (Decidable (IsText s))
  | .bool _ | .int _ | .float _ => isTrue trivial
  | .list xs => decideItem (.list xs)

end Inline

theorem IsName.isClean (h : IsName k) : ∀ c ∈ k.toList, Toml.isClean c = true :=
  fun c hc => (h.2 c hc).1

/-! ### Writing -/

theorem printString_of_isClean (h : ∀ c ∈ s.toList, isClean c = true) :
    printString s = .ok (quotedText s) := by
  have he := escapes_of_isClean h
  have hb : '\\' ∉ s.toList := fun hm => (ne_of_isClean (h _ hm)).2 rfl
  have hsplit : Text.split ['\\', 'x'] (escapes s.toList) = [escapes s.toList] := by
    rw [he, Text.split, Text.splitAtMost_of_not_mem hb]
  rw [printString_of_escapes hsplit, he, quotedText]

theorem inner_quotedText (s : String) : Text.inner (quotedText s) = s.toList :=
  inner_quoted s.toList

theorem printName_of_isName (h : IsName k) : printName k = .ok (nameText k) := by
  rw [printName, nameText]
  split
  · rfl
  · exact printString_of_isClean h.isClean

namespace Inline

theorem IsItem.isEntry {x : Inline} (h : x.IsItem) : x.IsEntry := by
  cases x with
  | text s => exact IsItemText.isText h
  | _ => exact h

theorem printNames_ok {es : Entries} (h : AreItems (es.map fun e => .text e.1)) :
    printNames es = .ok (itemChars (es.map fun e => .text e.1)) := by
  induction es with
  | nil => rfl
  | cons e es ih =>
    obtain ⟨k, v⟩ := e
    rw [printNames, IsText.written h.1.isEntry, ih h.2]
    rfl

mutual
theorem printValue_ok (p : Plain) (h : (ofPlain p).IsEntry) :
    printValue p = .ok (ofPlain p).chars := by
  match p with
  | .null => rfl
  | .bool b => rfl
  | .int n => rfl
  | .float x => rfl
  | .str s => exact IsText.written h
  | .list xs =>
    rw [printValue, printItems_ok xs h.2]
    rfl
  | .map es =>
    rw [printValue, printNames_ok h.2]
    rfl

theorem printItems_ok (xs : List Plain) (h : AreItems (ofPlains xs)) :
    printItems xs = .ok (itemChars (ofPlains xs)) := by
  match xs with
  | [] => rfl
  | x :: r =>
    rw [printItems, printValue_ok x h.1.isEntry, printItems_ok r h.2]
    rfl
end

end Inline
end CallTree.Toml
