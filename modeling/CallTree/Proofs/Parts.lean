import CallTree.Answer
import CallTree.Proofs.Dict
import CallTree.Proofs.Run
import Mathlib.Tactic.ByContra

/-! Taking values apart: one step of a path at a time, and where a path breaks off. -/
namespace CallTree

variable {σ α β : Type} {m m' : Machine σ} {f : Fault}

/-- Whether an event is the reading of a property. -/
def Event.isRead : Event → Bool
  | .read _ => true
  | _ => false

namespace Run

/-- A run that leaves no other records than those of properties. -/
def OnlyReads (x : Run σ α) : Prop :=
  ∀ m, ∃ es, (exec x m).2.events = m.events ++ es ∧ ∀ e ∈ es, e.isRead = true

theorem onlyReads_pure (a : α) : OnlyReads (pure a : Run σ α) := by
  intro m
  exact ⟨[], by simp, by simp⟩

theorem OnlyReads.bind {x : Run σ α} {k : α → Run σ β} (hx : OnlyReads x)
    (hk : ∀ a, OnlyReads (k a)) : OnlyReads (x >>= k) := by
  intro m
  obtain ⟨es, he, hr⟩ := hx m
  rcases hy : exec x m with ⟨f | a, m₁⟩
  · rw [hy] at he
    exact ⟨es, by rw [exec_bind_error hy, ← he], hr⟩
  · rw [hy] at he
    obtain ⟨fs, hf, hs⟩ := hk a m₁
    refine ⟨es ++ fs, ?_, ?_⟩
    · rw [exec_bind_ok hy, hf, ← List.append_assoc, ← he]
    · intro e h
      rcases List.mem_append.mp h with h | h
      · exact hr e h
      · exact hs e h

theorem onlyReads_mapM {k : α → Run σ β} (hk : ∀ a, OnlyReads (k a)) (as : List α) :
    OnlyReads (as.mapM k) := by
  induction as with
  | nil =>
    rw [List.mapM_nil]
    exact onlyReads_pure []
  | cons a r ih =>
    rw [List.mapM_cons]
    exact (hk a).bind fun b => ih.bind fun bs => onlyReads_pure (b :: bs)

/-- Of a list of runs one fails, after those before it came through. -/
theorem exec_mapM_error_iff {k : α → Run σ β} {as : List α} :
    (exec (as.mapM k) m).1 = .error f ↔ ∃ pre a post bs m₁, as = pre ++ a :: post ∧
      exec (pre.mapM k) m = (.ok bs, m₁) ∧ (exec (k a) m₁).1 = .error f := by
  induction as generalizing m with
  | nil => simp
  | cons a r ih =>
    rw [List.mapM_cons, exec_bind_error_iff]
    constructor
    · rintro (hf | ⟨b, m₁, ha, hf⟩)
      · exact ⟨[], a, r, [], m, rfl, by simp, hf⟩
      · rcases exec_bind_error_iff.mp hf with hf | ⟨bs, m₂, -, hf⟩
        · obtain ⟨pre, c, post, bs, m₂, hs, hp, hc⟩ := ih.mp hf
          refine ⟨a :: pre, c, post, b :: bs, m₂, by rw [hs, List.cons_append], ?_, hc⟩
          rw [List.mapM_cons, exec_bind_ok ha, exec_bind_ok hp, exec_pure]
        · cases hf
    · rintro ⟨_ | ⟨a', pre⟩, c, post, bs, m₂, hs, hp, hf⟩
      · cases hs
        cases hp
        exact Or.inl hf
      · cases hs
        rw [List.mapM_cons] at hp
        obtain ⟨b, m₁, ha, hp⟩ := exec_bind_eq_ok hp
        obtain ⟨bs', m₃, hp, hb⟩ := exec_bind_eq_ok hp
        cases hb
        exact Or.inr ⟨b, m₁, ha, exec_bind_error_iff.mpr
          (Or.inl (ih.mpr ⟨pre, c, post, bs', m₂, rfl, hp, hf⟩))⟩

end Run

namespace Host

open Run

/-- The member that counts under a name stands at its place. -/
theorem getElem?_of_member? {ms : List Member} {name : String} {i : Nat} {member : Member}
    (h : member? ms name = some (i, member)) : ms[i]? = some member ∧ member.name = name := by
  have hmem := List.mem_reverse.mp (List.mem_of_find?_eq_some h)
  obtain ⟨j, hj, he⟩ := List.mem_mapIdx.mp hmem
  cases he
  exact ⟨List.getElem?_eq_getElem hj, by simpa using List.find?_some h⟩

/-- The function that runs when a name of a value is read, where the name is a property. -/
def property? (h : Host σ) (v : Value) (name : String) : Option FunctionRef :=
  match v with
  | .object owner => match h.objects.lookup owner with
    | some (.plain ms _) | some (.provider ms _) => match member? ms name with
      | some (i, ⟨s, .property⟩) => some ⟨owner, i, s.name⟩
      | _ => none
    | _ => none
  | _ => none

theorem exec_property (h : Host σ) (owner : String) (place : Nat) (s : Signature)
    (m : Machine σ) :
    exec (h.readMember owner place ⟨s, .property⟩) m =
      ((match (h.perform ⟨owner, place, s.name⟩ [] m.host).1 with
        | .ok v => .ok (some v)
        | .error .missingAttribute => .ok none
        | .error f => .error f),
        { m with
          host := (h.perform ⟨owner, place, s.name⟩ [] m.host).2
          events := m.events ++ [.read s.name] }) := by
  simp only [readMember, Member.name]
  rw [exec_bind_ok (exec_record _), exec_tryCatch, ← bind_pure_comp, exec_bind, exec_enter]
  generalize h.perform ⟨owner, place, s.name⟩ [] m.host = r
  rcases r with ⟨f | v, s'⟩
  · cases f <;> rfl
  · rfl

theorem onlyReads_readMember (h : Host σ) (owner : String) (place : Nat) (member : Member) :
    OnlyReads (h.readMember owner place member) := by
  obtain ⟨s, kind⟩ := member
  cases kind with
  | property =>
    intro m
    exact ⟨[.read s.name], by rw [exec_property], by simp [Event.isRead]⟩
  | _ => exact onlyReads_pure _

theorem exec_readMember_error_iff (h : Host σ) (owner : String) (place : Nat) (member : Member) :
    (exec (h.readMember owner place member) m).1 = .error f ↔ member.kind = .property ∧
      (h.perform ⟨owner, place, member.name⟩ [] m.host).1 = .error f ∧ f ≠ .missingAttribute := by
  obtain ⟨s, kind⟩ := member
  cases kind with
  | property =>
    rw [exec_property]
    simp only [Member.name, true_and]
    rcases (h.perform ⟨owner, place, s.name⟩ [] m.host).1 with f' | v
    · cases f' <;> simp <;> rintro rfl <;> simp
    · simp
  | _ => simp [readMember]

theorem onlyReads_part? (h : Host σ) (v : Value) (name : String) : OnlyReads (h.part? v name) := by
  unfold part?
  split
  · exact onlyReads_pure _
  · split
    · split
      · exact h.onlyReads_readMember _ _ _
      · exact onlyReads_pure _
    · split
      · exact h.onlyReads_readMember _ _ _
      · exact onlyReads_pure _
    all_goals exact onlyReads_pure _
  · exact onlyReads_pure _

theorem exec_part?_error_iff (h : Host σ) (v : Value) (name : String) :
    (exec (h.part? v name) m).1 = .error f ↔ ∃ ref, h.property? v name = some ref ∧
      (h.perform ref [] m.host).1 = .error f ∧ f ≠ .missingAttribute := by
  cases v with
  | object owner =>
    simp only [part?, property?]
    rcases h.objects.lookup owner with _ | o
    · simp
    · cases o with
      | plain ms t | provider ms t =>
        dsimp only
        rcases member? ms name with _ | ⟨i, s, kind⟩
        · simp
        · simp only [exec_readMember_error_iff]
          cases kind <;> simp [Member.name]
      | _ => simp
  | _ => simp [part?, property?]

end Host

namespace Answer

/-- What stands under a name in a mapping or an object; nothing, where nothing does. -/
def step (h : Host σ) (v : Value) (name : String) : Run σ Value :=
  match v with
  | .null => pure .null
  | _ => match h.objects.entries? v with
    | some es => pure ((Dict.get? (.str name) es).getD .null)
    | none => do
      let part ← h.part? v name
      pure (part.getD .null)

theorem extract_null (h : Host σ) (p : Key.Path) : extract h .null p = pure .null := by
  cases p <;> rfl

theorem extract_cons (h : Host σ) (v : Value) (name : String) (p : Key.Path) :
    extract h v (name :: p) = step h v name >>= fun w => extract h w p := by
  cases v <;> simp only [extract, step]
  case null => rw [pure_bind, extract_null]
  all_goals
    generalize h.objects.entries? _ = entries
    cases entries <;> simp

/-- Following a path into a value comes to a property that fails with `f`. -/
inductive Breaks (h : Host σ) (f : Fault) : Value → Key.Path → Machine σ → Prop
  | here {v : Value} {name : String} {p : Key.Path} {m : Machine σ} {ref : FunctionRef}
      (hr : h.property? v name = some ref) (hp : (h.perform ref [] m.host).1 = .error f)
      (hf : f ≠ .missingAttribute) : Breaks h f v (name :: p) m
  | further {v w : Value} {name : String} {p : Key.Path} {m m' : Machine σ}
      (hs : Run.exec (step h v name) m = (.ok w, m')) (hb : Breaks h f w p m') :
      Breaks h f v (name :: p) m

theorem not_mapping_of_property? {h : Host σ} {v : Value} {name : String} {ref : FunctionRef}
    (hr : h.property? v name = some ref) : v ≠ .null ∧ h.objects.entries? v = none := by
  cases v with
  | object owner =>
    refine ⟨by simp, ?_⟩
    simp only [Host.property?] at hr
    simp only [Objects.entries?]
    rcases ho : h.objects.lookup owner with _ | o
    · rfl
    · rw [ho] at hr
      cases o <;> simp_all
  | _ => simp [Host.property?] at hr

/-- A step is settled without the host, or it reads a name of an object. -/
theorem step_cases (h : Host σ) (v : Value) (name : String) :
    (h.property? v name = none ∧ ∃ w, step h v name = pure w) ∨
      step h v name = h.part? v name >>= fun part => pure (part.getD .null) := by
  by_cases hv : v ≠ .null ∧ h.objects.entries? v = none
  · right
    obtain ⟨hv, he⟩ := hv
    cases v <;> simp_all [step]
  · left
    constructor
    · cases hr : h.property? v name with
      | none => rfl
      | some ref => exact (hv (not_mapping_of_property? hr)).elim
    · cases he : h.objects.entries? v with
      | none =>
        have hn : v = .null := by
          by_contra hn
          exact hv ⟨hn, he⟩
        exact ⟨.null, by rw [hn]; rfl⟩
      | some es =>
        cases v with
        | null => exact ⟨.null, rfl⟩
        | _ => exact ⟨_, by simp only [step, he]; rfl⟩

theorem exec_step_error_iff (h : Host σ) (v : Value) (name : String) :
    (Run.exec (step h v name) m).1 = .error f ↔ ∃ ref, h.property? v name = some ref ∧
      (h.perform ref [] m.host).1 = .error f ∧ f ≠ .missingAttribute := by
  rcases step_cases h v name with ⟨hr, w, hw⟩ | hs
  · simp [hw, hr]
  · rw [hs, Run.exec_bind_error_iff, h.exec_part?_error_iff]
    simp

theorem onlyReads_step (h : Host σ) (v : Value) (name : String) :
    Run.OnlyReads (step h v name) := by
  rcases step_cases h v name with ⟨-, w, hw⟩ | hs
  · rw [hw]
    exact Run.onlyReads_pure w
  · rw [hs]
    exact (h.onlyReads_part? v name).bind fun part => Run.onlyReads_pure _

theorem onlyReads_extract (h : Host σ) (v : Value) (p : Key.Path) :
    Run.OnlyReads (extract h v p) := by
  induction p generalizing v with
  | nil => exact Run.onlyReads_pure v
  | cons name p ih =>
    rw [extract_cons]
    exact (onlyReads_step h v name).bind ih

theorem breaks_iff (h : Host σ) (v : Value) (p : Key.Path) :
    Breaks h f v p m ↔ (Run.exec (extract h v p) m).1 = .error f := by
  induction p generalizing v m with
  | nil =>
    constructor
    · rintro ⟨⟩
    · simp [extract]
  | cons name p ih =>
    rw [extract_cons]
    have he := exec_step_error_iff (m := m) (f := f) h v name
    rcases hs : Run.exec (step h v name) m with ⟨f' | w, m₁⟩
    · rw [hs] at he
      rw [Run.exec_bind_error hs, he]
      constructor
      · rintro (⟨hr, hp, hf⟩ | ⟨hs', -⟩)
        · exact ⟨_, hr, hp, hf⟩
        · simp [hs] at hs'
      · rintro ⟨ref, hr, hp, hf⟩
        exact .here hr hp hf
    · rw [hs] at he
      rw [Run.exec_bind_ok hs, ← ih]
      constructor
      · rintro (⟨hr, hp, hf⟩ | ⟨hs', hb⟩)
        · simpa using he.mpr ⟨_, hr, hp, hf⟩
        · rw [hs] at hs'
          cases hs'
          exact hb
      · intro hb
        exact .further hs hb

/-- What a path gives of a value, where an error stands for each of its parts. -/
def part (h : Host σ) (v : Value) (p : Key.Path) : Run σ Value :=
  match v with
  | .error _ => pure v
  | _ => extract h v p

/-- What a path binds of a value. -/
def boundPart (h : Host σ) (v : Value) (p : Key.Path) : Run σ (Value × Value) := do
  let w ← part h v p
  pure (lastName p, w)

/-- The names that a key binds. -/
def boundNames (key : Value) : List Value :=
  match destructuring? key with
  | some paths => paths.map lastName
  | none => [key]

/-- What a value binds under a key, for each path in turn. -/
def parts (h : Host σ) (key v : Value) : Run σ (List (Value × Value)) :=
  match destructuring? key with
  | some paths => paths.mapM (boundPart h v)
  | none => pure [(key, v)]

/-- Taking a value apart under a key fails with `f`: one of the paths breaks off, after those before
it were followed to their ends. -/
def BreaksUnder (h : Host σ) (f : Fault) (key v : Value) (m : Machine σ) : Prop :=
  ∃ pre p post es m₁, destructuring? key = some (pre ++ p :: post) ∧ v.isError = false ∧
    Run.exec (pre.mapM (boundPart h v)) m = (.ok es, m₁) ∧ Breaks h f v p m₁

/-- A value binds its parts one after the other. -/
theorem bindings_eq (h : Host σ) (key v : Value) :
    bindings h key v = parts h key v >>= fun es => pure (Dict.ofList es) := by
  unfold bindings parts
  cases destructuring? key with
  | none => rw [pure_bind, Dict.ofList_singleton]
  | some paths =>
    cases v with
    | error e =>
      have hp : boundPart h (.error e) = fun p => pure (lastName p, .error e) := by
        funext p
        rw [boundPart, part, pure_bind]
      simp only [destructure, hp, List.mapM_pure, pure_bind]
    | _ => rfl

theorem onlyReads_part (h : Host σ) (v : Value) (p : Key.Path) :
    Run.OnlyReads (part h v p) := by
  cases v with
  | error e => exact Run.onlyReads_pure _
  | _ => exact onlyReads_extract h _ p

theorem onlyReads_parts (h : Host σ) (key v : Value) : Run.OnlyReads (parts h key v) := by
  unfold parts
  cases destructuring? key with
  | none => exact Run.onlyReads_pure _
  | some paths =>
    refine Run.onlyReads_mapM ?_ paths
    intro p
    exact (onlyReads_part h v p).bind fun w => Run.onlyReads_pure _

theorem fst_boundPart {h : Host σ} {v : Value} {p : Key.Path} {e : Value × Value}
    (he : Run.exec (boundPart h v p) m = (.ok e, m')) : e.1 = lastName p := by
  obtain ⟨w, m₁, -, he⟩ := Run.exec_bind_eq_ok he
  rw [Run.exec_pure] at he
  cases he
  rfl

/-- The names that a value binds are in its key, whatever the value is. -/
theorem keys_parts {h : Host σ} {key v : Value} {es : List (Value × Value)}
    (he : Run.exec (parts h key v) m = (.ok es, m')) : es.map (·.1) = boundNames key := by
  unfold parts at he
  unfold boundNames
  cases hd : destructuring? key with
  | none =>
    rw [hd, Run.exec_pure] at he
    cases he
    rfl
  | some paths =>
    rw [hd] at he
    dsimp only at he ⊢
    clear hd
    induction paths generalizing m es with
    | nil =>
      rw [List.mapM_nil, Run.exec_pure] at he
      cases he
      rfl
    | cons p r ih =>
      rw [List.mapM_cons] at he
      obtain ⟨e, m₁, hp, he⟩ := Run.exec_bind_eq_ok he
      obtain ⟨fs, m₂, hr, he⟩ := Run.exec_bind_eq_ok he
      rw [Run.exec_pure] at he
      cases he
      rw [List.map_cons, List.map_cons, fst_boundPart hp, ih hr]

theorem exec_boundPart_error_iff (h : Host σ) (v : Value) (p : Key.Path) :
    (Run.exec (boundPart h v p) m).1 = .error f ↔ v.isError = false ∧ Breaks h f v p m := by
  have hb := breaks_iff (m := m) (f := f) h v p
  cases v with
  | error e => simp [boundPart, part, Value.isError]
  | _ =>
    rw [hb, boundPart, Run.exec_bind_error_iff]
    simp [part, Value.isError]

theorem exec_parts_error_iff (h : Host σ) (key v : Value) :
    (Run.exec (parts h key v) m).1 = .error f ↔ BreaksUnder h f key v m := by
  unfold parts BreaksUnder
  cases hd : destructuring? key with
  | none => simp
  | some paths =>
    simp only [Option.some.injEq, Run.exec_mapM_error_iff, exec_boundPart_error_iff]
    constructor
    · rintro ⟨pre, p, post, es, m₁, hs, hx, hv, hb⟩
      exact ⟨pre, p, post, es, m₁, hs, hv, hx, hb⟩
    · rintro ⟨pre, p, post, es, m₁, hs, hv, hx, hb⟩
      exact ⟨pre, p, post, es, m₁, hs, hx, hv, hb⟩

end Answer
end CallTree
