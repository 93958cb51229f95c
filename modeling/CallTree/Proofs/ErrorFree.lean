import CallTree.Proofs.Watched

/-! Values without errors. Where the functions of a host give no errors, neither do its calls, and
there are none in the parts of what it gives. -/
namespace CallTree

variable {σ α β : Type} {h : Host σ} {v w : Value} {m m' : Machine (Watched σ)}

open Run

namespace Value

mutual
/-- Whether a value is no error, and has none inside. -/
def errorFree : Value → Bool
  | .error _ => false
  | .list xs => allErrorFree xs
  | .tuple xs => allErrorFree xs
  | .set xs => allErrorFree xs
  | .map es => entriesErrorFree es
  | _ => true

def allErrorFree : List Value → Bool
  | [] => true
  | x :: r => errorFree x && allErrorFree r

def entriesErrorFree : List (Value × Value) → Bool
  | [] => true
  | (k, v) :: r => errorFree k && errorFree v && entriesErrorFree r
end

theorem allErrorFree_iff {xs : List Value} :
    allErrorFree xs = true ↔ ∀ x ∈ xs, x.errorFree = true := by
  induction xs with
  | nil => simp [allErrorFree]
  | cons x r ih => simp [allErrorFree, ih]

theorem entriesErrorFree_iff {es : List (Value × Value)} :
    entriesErrorFree es = true ↔ ∀ e ∈ es, e.1.errorFree = true ∧ e.2.errorFree = true := by
  induction es with
  | nil => simp [entriesErrorFree]
  | cons e r ih => simp [entriesErrorFree, ih]

theorem errorFree_of_get? {es : List (Value × Value)} {k : Value}
    (he : entriesErrorFree es = true) (hk : Dict.get? k es = some v) : v.errorFree = true := by
  obtain ⟨e, hm, rfl⟩ := Dict.mem_of_get? hk
  exact (entriesErrorFree_iff.mp he e hm).2

end Value

/-- An attribute is a value that is there without the host. -/
def MemberKind.errorFree : MemberKind → Bool
  | .attribute v | .slot v => v.errorFree
  | _ => true

def Item.errorFree : Item → Bool
  | .value v => v.errorFree
  | _ => true

/-- Whether there is no error in what an object of the host shows, or gives, on its own. -/
def HostObject.errorFree : HostObject → Bool
  | .provider ms _ | .plain ms _ => ms.all fun m => m.kind.errorFree
  | .mapping es => es.all fun e => e.2.errorFree
  | .adapter of => of.errorFree
  | .space parts => parts.all fun p => p.2.errorFree
  | .functions _ named => named.all fun e => e.2.errorFree
  | .lister _ | .hook | .factory _ | .blueprint => true

def Objects.errorFree (os : Objects) : Bool := os.all fun o => o.2.errorFree

/-- Whether a function of the host neither gave nor raised an error. -/
def Outcome.errorFree : Outcome → Bool
  | .ok v => v.errorFree
  | .error (.reported _) => false
  | .error _ => true

theorem Objects.errorFree_of_lookup {os : Objects} (ho : os.errorFree = true) {name : String}
    {o : HostObject} (hl : os.lookup name = some o) : o.errorFree = true :=
  List.all_eq_true.mp ho _ (mem_of_lookup hl)

theorem Item.errorFree_toValue {item : Item} (hi : item.errorFree = true) (owner : String)
    (place : Nat) : (item.toValue owner place).errorFree = true := by
  cases item with
  | value v => exact hi
  | _ => rfl

theorem errorFree_of_mem_itemEntries {items : List (Value × Item)} {owner : String} {first : Nat}
    (hi : ∀ item ∈ items, item.2.errorFree = true) {e : Value × Value}
    (he : e ∈ itemEntries owner first items) : e.2.errorFree = true := by
  obtain ⟨e', hm, hv⟩ := Dict.value_of_mem_ofList he
  obtain ⟨j, hj, rfl⟩ := List.mem_mapIdx.mp hm
  rw [← hv]
  exact Item.errorFree_toValue (hi _ (List.getElem_mem hj)) owner _

theorem Objects.errorFree_functionMap (os : Objects) (owner : String) (positional : List Signature)
    {named : List (Value × Item)} (hn : ∀ item ∈ named, item.2.errorFree = true) :
    (os.functionMap owner positional named).errorFree = true := by
  refine Value.entriesErrorFree_iff.mpr ?_
  intro e he
  constructor
  · have htexts : Dict.Texts (Dict.ofList ((os.functionEntries owner positional named).map
        fun e => (Value.str e.1, e.2))) := Dict.texts_ofList fun e he => by
      obtain ⟨p, -, rfl⟩ := List.mem_map.mp he
      exact ⟨p.1, rfl⟩
    obtain ⟨t, ht⟩ := htexts e.1 (List.mem_map_of_mem he)
    rw [ht]
    rfl
  · obtain ⟨e', hm, hv⟩ := Dict.value_of_mem_ofList he
    obtain ⟨p, hp, rfl⟩ := List.mem_map.mp hm
    rw [← hv]
    rcases List.mem_append.mp hp with hp | hp
    · obtain ⟨i, hi, rfl⟩ := List.mem_mapIdx.mp hp
      rfl
    · obtain ⟨item, hitem, rfl⟩ := List.mem_map.mp hp
      have hfree := errorFree_of_mem_itemEntries hn hitem
      exact hfree

theorem Objects.errorFree_of_entries? {os : Objects} (ho : os.errorFree = true)
    (hv : v.errorFree = true) {es : List (Value × Value)} (he : os.entries? v = some es) {k : Value}
    (hk : Dict.get? k es = some w) : w.errorFree = true := by
  cases v with
  | map es' =>
    cases he
    exact Value.errorFree_of_get? hv hk
  | object name =>
    simp only [entries?] at he
    split at he
    · next items hl =>
      cases he
      have hitems := errorFree_of_lookup ho hl
      obtain ⟨e, he, rfl⟩ := Dict.mem_of_get? hk
      exact errorFree_of_mem_itemEntries (List.all_eq_true.mp hitems) he
    · cases he
  | _ => cases he

/-! ### Runs whose outcomes have no errors -/

/-- A machine to which the host gave no error. -/
def Machine.Clean (m : Machine (Watched σ)) : Prop := ∀ o ∈ m.host.2, Outcome.errorFree o = true

theorem Machine.Clean.of_prefix (hc : m'.Clean) (hp : m.host.2 <+: m'.host.2) : m.Clean :=
  fun o ho => hc o (hp.subset ho)

theorem Run.Extends.clean {x : Run (Watched σ) α} (hx : Extends x) {r : Except Fault α}
    (he : exec x m = (r, m')) (hc : m'.Clean) : m.Clean := by
  have hp := hx m
  rw [he] at hp
  exact hc.of_prefix hp

/-- All values of a list of runs are as each of the runs has it where the machine stays clean. -/
theorem Run.forall_of_mapM {k : α → Run (Watched σ) β} {P : β → Prop}
    (hrel : ∀ a past, Related (Machine.Follows past) (k a) (k a))
    (hk : ∀ {a b m m'}, exec (k a) m = (.ok b, m') → m'.Clean → P b) {as : List α} {bs : List β}
    (hx : exec (as.mapM k) m = (.ok bs, m')) (hc : m'.Clean) : ∀ b ∈ bs, P b := by
  induction as generalizing m bs with
  | nil =>
    cases hx
    intro b hb
    cases hb
  | cons a r ih =>
    rw [List.mapM_cons] at hx
    obtain ⟨b, m₁, ha, hx⟩ := exec_bind_eq_ok hx
    obtain ⟨bs', m₂, hr, hx⟩ := exec_bind_eq_ok hx
    cases hx
    have hext : Extends (r.mapM k) :=
      extends_of_related fun past => related_mapM (fun a => hrel a past) r
    rintro b' (_ | ⟨_, hb⟩)
    · exact hk ha (hext.clean hr hc)
    · exact ih hr b' hb

namespace Host

theorem errorFree_enter {f : FunctionRef} {args : List Value}
    (hc : (exec (h.watched.enter f args) m).2.Clean) :
    Outcome.errorFree (exec (h.watched.enter f args) m).1 = true :=
  hc _ (List.mem_append_right _ (List.mem_singleton_self _))

theorem errorFree_recorded {e : Event} {f : FunctionRef} {args : List Value}
    (hc : (exec (do record e; h.watched.enter f args) m).2.Clean) :
    Outcome.errorFree (exec (do record e; h.watched.enter f args) m).1 = true := by
  rw [exec_bind_ok (exec_record _)] at hc ⊢
  exact errorFree_enter hc

theorem errorFree_call {target : Value} {args : List Value}
    (hc : (exec (h.watched.call target args) m).2.Clean) :
    Outcome.errorFree (exec (h.watched.call target args) m).1 = true := by
  cases target with
  | function f =>
    simp only [call, watched_objects] at hc ⊢
    cases hs : h.objects.signature? f with
    | none => rfl
    | some s =>
      by_cases ha : s.accepts args.length
      · simp only [hs, ha, if_true] at hc ⊢
        exact errorFree_recorded hc
      · simp only [ha]
        rfl
  | object name =>
    simp only [call, watched_objects] at hc ⊢
    generalize h.objects.lookup name = o at hc ⊢
    rcases o with _ | o
    · rfl
    · cases o with
      | hook =>
        rcases args with _ | ⟨arg, _ | ⟨arg', r⟩⟩
        · rfl
        · exact errorFree_recorded hc
        · rfl
      | factory parameters =>
        by_cases ha : parameters.accept args.length
        · simp only [ha, if_true] at hc ⊢
          exact errorFree_recorded hc
        · simp only [ha]
          rfl
      | blueprint => exact errorFree_recorded hc
      | _ => rfl
  | _ => rfl

theorem errorFree_readMember {owner : String} {place : Nat} {member : Member}
    (hm : member.kind.errorFree = true)
    (hx : exec (h.watched.readMember owner place member) m = (.ok (some v), m')) (hc : m'.Clean) :
    v.errorFree = true := by
  obtain ⟨s, kind⟩ := member
  match kind, hm with
  | .property, _ =>
    rw [exec_property] at hx
    obtain ⟨hend, rfl⟩ := Prod.mk.inj hx
    have ho := hc _ (List.mem_append_right _ (List.mem_singleton_self _))
    split at hend
    · next w hw =>
      cases hend
      have hw' : (h.perform ⟨owner, place, s.name⟩ [] m.host.1).1 = .ok v := hw
      rwa [hw'] at ho
    · cases hend
    · cases hend
  | .attribute w, hm | .slot w, hm =>
    cases hx
    exact hm
  | .ghost, _ => cases hx
  | .method, _ | .static, _ | .classwide, _ | .functionAttribute, _ | .callableAttribute, _
  | .nestedClass, _ =>
    cases hx
    rfl

theorem errorFree_part? (ho : h.objects.errorFree = true) (hv : v.errorFree = true) {name : String}
    (hx : exec (h.watched.part? v name) m = (.ok (some w), m')) (hc : m'.Clean) :
    w.errorFree = true := by
  have hlisting : ∀ {owner place}, exec (pure (listingAttribute owner place name)) m =
      (.ok (some w), m') → w.errorFree = true := by
    intro owner place hx
    rw [exec_pure, listingAttribute] at hx
    split at hx <;> cases hx
    rfl
  cases v with
  | error e => cases hv
  | object owner =>
    simp only [part?, watched_objects] at hx
    split at hx
    · next ms t hl =>
      have hms := List.all_eq_true.mp (Objects.errorFree_of_lookup ho hl)
      split at hx
      · next i member hm =>
        exact errorFree_readMember (hms _ (List.mem_of_getElem? (getElem?_of_member? hm).1)) hx hc
      · cases hx
    · next ms t hl =>
      have hms := List.all_eq_true.mp (Objects.errorFree_of_lookup ho hl)
      split at hx
      · next i member hm =>
        exact errorFree_readMember (hms _ (List.mem_of_getElem? (getElem?_of_member? hm).1)) hx hc
      · exact hlisting hx
    · next positional named hl =>
      have hnamed := List.all_eq_true.mp (Objects.errorFree_of_lookup ho hl)
      split at hx
      · cases hx
        exact Objects.errorFree_functionMap h.objects owner positional hnamed
      · exact hlisting hx
    · next of hl =>
      have hof : of.errorFree = true := Objects.errorFree_of_lookup ho hl
      split at hx
      · cases hx
        exact hof
      · exact hlisting hx
    · exact hlisting hx
    · next parts hl =>
      have hparts := List.all_eq_true.mp (Objects.errorFree_of_lookup ho hl)
      rw [exec_pure] at hx
      exact hparts _ (mem_of_lookup (Except.ok.inj (Prod.mk.inj hx).1))
    · cases hx
  | _ => cases hx

end Host

namespace Answer

theorem errorFree_step (ho : h.objects.errorFree = true) (hv : v.errorFree = true) {name : String}
    (hx : exec (step h.watched v name) m = (.ok w, m')) (hc : m'.Clean) : w.errorFree = true := by
  by_cases hnull : v = .null
  · subst hnull
    cases hx
    rfl
  · cases he : h.objects.entries? v with
    | some es =>
      have hs : step h.watched v name = pure ((Dict.get? (.str name) es).getD .null) := by
        cases v <;> simp_all [step]
      rw [hs] at hx
      cases hx
      cases hk : Dict.get? (.str name) es with
      | none => rfl
      | some w => exact Objects.errorFree_of_entries? ho hv he hk
    | none =>
      have hs : step h.watched v name =
          h.watched.part? v name >>= fun part => pure (part.getD .null) := by
        cases v <;> simp_all [step]
      rw [hs] at hx
      obtain ⟨part, m₁, hp, hx⟩ := exec_bind_eq_ok hx
      cases hx
      cases part with
      | none => rfl
      | some w => exact Host.errorFree_part? ho hv hp hc

theorem errorFree_extract (ho : h.objects.errorFree = true) (hv : v.errorFree = true)
    {p : Key.Path} (hx : exec (extract h.watched v p) m = (.ok w, m')) (hc : m'.Clean) :
    w.errorFree = true := by
  induction p generalizing v m with
  | nil =>
    cases hx
    exact hv
  | cons name p ih =>
    rw [extract_cons] at hx
    obtain ⟨u, m₁, hs, hx⟩ := exec_bind_eq_ok hx
    have hext : Extends (extract h.watched u p) :=
      extends_of_related fun past => (h.watched_simulates past).extract u p
    exact ih (errorFree_step ho hv hs (hext.clean hx hc)) hx

theorem errorFree_parts (ho : h.objects.errorFree = true) (hv : v.errorFree = true) {key : Value}
    {es : List (Value × Value)} (hx : exec (parts h.watched key v) m = (.ok es, m'))
    (hc : m'.Clean) : ∀ e ∈ es, e.2.errorFree = true := by
  unfold parts at hx
  split at hx
  · refine forall_of_mapM (fun p past => (h.watched_simulates past).boundPart v p) ?_ hx hc
    intro p e m m' he hc
    obtain ⟨u, m₁, hu, he⟩ := exec_bind_eq_ok he
    cases he
    have hpart : part h.watched v p = extract h.watched v p := by
      cases v with
      | error e => cases hv
      | _ => rfl
    rw [hpart] at hu
    exact errorFree_extract ho hv hu hc
  · cases hx
    intro e he
    obtain rfl := List.mem_singleton.mp he
    exact hv

end Answer
end CallTree
