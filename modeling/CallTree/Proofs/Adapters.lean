import CallTree.Proofs.Simulation

/-! The ways in which functions become a root. All of them list the same callables, and requests are
answered alike by them. -/
namespace CallTree

variable {σ τ : Type} {R : Machine σ → Machine τ → Prop} {os : Objects} {fs : List FunctionRef}
  {root v : Value} {owner : String} {s s' : Scope}

open Run

/-! ### Scopes side by side -/

section Scopes

variable {g : Setting σ} {g' : Setting τ}

/-- Scopes with the same callables, where the calls behind statements are alike. -/
structure Scope.Related (R : Machine σ → Machine τ → Prop) (g : Setting σ) (g' : Setting τ)
    (s s' : Scope) : Prop where
  callables : s'.callables = s.callables
  invoke : ∀ mode name entry args, Run.Related R (g.invoke s mode name entry args)
    (g'.invoke s' mode name entry args)

namespace Setting.Simulates

theorem scope (hs : g.Simulates R g') (s : Scope) : s.Related R g g' s :=
  ⟨rfl, hs.invoke s⟩

theorem evaluateIn (hs : g.Simulates R g') (hc : s.Related R g g' s') (text : Value)
    (mode : Mode) (context : Dict Value) :
    Related R (g.evaluate s text mode context) (g'.evaluate s' text mode context) :=
  related_evaluate hc.callables hs.logError hc.invoke text mode context

theorem bindings (hs : g.Simulates R g') (key v : Value) :
    Related R (Answer.bindings g.host key v) (Answer.bindings g'.host key v) := by
  rw [Answer.bindings_eq, Answer.bindings_eq]
  exact (hs.host.parts key v).bind fun es => related_pure _

-- The scopes differ at the root only: a scope below belongs to a value, which is the same in both.
mutual
theorem answerEntry (hs : g.Simulates R g') {s s' : Scope}
    (hc : s.Related R g g' s') (context : Dict Value) (e : RequestEntry) :
    Related R (Answer.answerEntry g s context e) (Answer.answerEntry g' s' context e) := by
  match e with
  | .declare n v | .invalid key => exact related_pure _
  | .leaf key text =>
    rw [Answer.answerEntry, Answer.answerEntry]
    exact (hs.evaluateIn hc _ _ _).bind fun v => hs.bindings key v
  | .scope key body =>
    rw [Answer.answerEntry, Answer.answerEntry]
    exact (hs.evaluateIn hc _ _ _).bind fun provider => (hs.bind provider).bind fun child =>
      hs.answerEntries (hs.scope child) context [] body

theorem answerEntries (hs : g.Simulates R g') {s s' : Scope}
    (hc : s.Related R g g' s') (context results : Dict Value) (es : List RequestEntry) :
    Related R (Answer.answerEntries g s context results es)
      (Answer.answerEntries g' s' context results es) := by
  match es with
  | [] => exact related_pure _
  | e :: r =>
    rw [Answer.answerEntries, Answer.answerEntries]
    exact (hs.answerEntry hc context e).bind fun bound => hs.answerEntries hc _ _ r
end

/-- Values are answered alike in scopes that are alike. -/
theorem answerValue (hs : g.Simulates R g') (hc : s.Related R g g' s')
    (context : Dict Value) (v : Value) :
    Related R (Answer.answerValue g s context v) (Answer.answerValue g' s' context v) := by
  unfold Answer.answerValue
  rw [hs.host.objects]
  split
  · exact hs.answerEntries hc context [] _
  · exact related_throw _

end Setting.Simulates
end Scopes

/-! ### Records that name different providers -/

/-- An event without the provider that it names. -/
def Event.anonymous : Event → Event
  | .invoke _ mode name entry args => .invoke .null mode name entry args
  | e => e

/-- Machines that differ in nothing but the providers that invocations are recorded for: the host is
in the same state, the same functions ran and the same properties were read, and as many errors
are logged. -/
structure Machine.Alike (m m' : Machine σ) : Prop where
  host : m'.host = m.host
  events : m'.events.map Event.anonymous = m.events.map Event.anonymous
  logged : m'.logged = m.logged

theorem Machine.alike_refl (m : Machine σ) : m.Alike m := ⟨rfl, rfl, rfl⟩

theorem Run.related_record_alike {e e' : Event} (he : e'.anonymous = e.anonymous) :
    Related (Machine.Alike : Machine σ → Machine σ → Prop) (record e) (record e') := by
  intro m m' hm
  refine ⟨rfl, hm.host, ?_, hm.logged⟩
  simp only [exec_record, List.map_append, List.map_cons, List.map_nil, hm.events, he]

theorem Host.simulates_alike (h : Host σ) : h.Simulates Machine.Alike h := by
  refine ⟨rfl, fun e _ => Run.related_record_alike rfl, ?_⟩
  intro f args m m' hm
  rw [exec_enter, exec_enter, hm.host]
  exact ⟨rfl, rfl, hm.events, hm.logged⟩

theorem Setting.simulates_alike (g : Setting σ) : g.Simulates Machine.Alike g := by
  refine g.host.simulates_alike.setting (fun e => Run.related_record_alike rfl) ?_ g.transform
  intro m m' hm
  exact ⟨rfl, hm.host, hm.events, congrArg (· + 1) hm.logged⟩

/-- Scopes with the same callables are alike, whoever provides these. -/
theorem Setting.related_scope (g : Setting σ) (hc : s'.callables = s.callables) :
    s.Related Machine.Alike g g s' := by
  refine ⟨hc, ?_⟩
  intro mode name entry args
  have hr : ∀ given, Related Machine.Alike
      (record (.invoke s.provider mode name entry given) : Run σ Unit)
      (record (.invoke s'.provider mode name entry given)) := fun _ => related_record_alike rfl
  exact g.host.simulates_alike.invoke g.transform hr args

/-! ### Functions under their names -/

/-- Functions with their names, in order. -/
def FunctionRef.named (fs : List FunctionRef) : List (String × Value) :=
  fs.map fun f => (f.name, .function f)

/-- The mapping that is filled with functions under their names, one after the other. -/
def FunctionRef.byName (fs : List FunctionRef) : Dict Value :=
  Dict.ofList (fs.map fun f => (.str f.name, .function f))

/-- Functions that an object has of its own. -/
def FunctionRef.own (owner : String) (ss : List Signature) : List FunctionRef :=
  ss.mapIdx fun i s => ⟨owner, i, s.name⟩

/-- The callables that functions are under their names. -/
def Table.ofFunctions (os : Objects) (fs : List FunctionRef) : Table :=
  Dict.ofList (fs.map fun f => (.str f.name, Entry.ofTarget os (.str f.name) (.function f)))

open FunctionRef

/-- The roots that offer functions under their names: an object made of the functions, an object
made of the mapping of names to functions, the mapping itself, and an object that gives the mapping,
or one just like it, when it is asked for its callables. -/
inductive Presents (os : Objects) : List FunctionRef → Value → Prop
  | positional {owner : String} {ss : List Signature}
      (ho : os.lookup owner = some (.functions ss [])) : Presents os (own owner ss) (.object owner)
  | named {fs : List FunctionRef} {owner : String} {entries : List (Value × Item)}
      (ho : os.lookup owner = some (.functions [] entries))
      (he : itemEntries owner 0 entries = byName fs) : Presents os fs (.object owner)
  | mapping {fs : List FunctionRef} {v : Value} (he : os.entries? v = some (byName fs)) :
      Presents os fs v
  | gives {fs : List FunctionRef} {owner : String} {v : Value}
      (ho : os.lookup owner = some (.lister (.gives v))) (he : os.entries? v = some (byName fs)) :
      Presents os fs (.object owner)
  | lists {owner : String} {ss : List Signature}
      (ho : os.lookup owner =
        some (.lister (.items (ss.map fun s => (.str s.name, .function s))))) :
      Presents os (own owner ss) (.object owner)

/-! ### The callables of functions -/

namespace FunctionRef

theorem byName_concat (fs : List FunctionRef) (f : FunctionRef) :
    byName (fs ++ [f]) = Dict.insert (.str f.name) (.function f) (byName fs) := by
  simp [byName, Dict.ofList, Dict.insertAll_append]

theorem texts_byName (fs : List FunctionRef) : (byName fs).Texts := by
  refine Dict.texts_ofList fun e he => ?_
  obtain ⟨f, -, rfl⟩ := List.mem_map.mp he
  exact ⟨f.name, rfl⟩

/-- The texts of the names are the names. -/
theorem texts_of_names (object : String → String) (fs : List FunctionRef) :
    (byName fs).map (fun e => (Value.str (e.1.text object), e.2)) = byName fs := by
  refine (List.map_congr_left fun e he => ?_).trans (List.map_id _)
  obtain ⟨k, v⟩ := e
  obtain ⟨t, rfl⟩ := texts_byName fs k (List.mem_map_of_mem he)
  rfl

theorem isCallable_of_mem {e : Value × Value} (he : e ∈ byName fs) : os.isCallable e.2 = true := by
  obtain ⟨e', he', hv⟩ := Dict.value_of_mem_ofList he
  obtain ⟨f, -, rfl⟩ := List.mem_map.mp he'
  rw [← hv]
  rfl

end FunctionRef

namespace Table

theorem ofFunctions_concat (os : Objects) (fs : List FunctionRef) (f : FunctionRef) :
    ofFunctions os (fs ++ [f]) =
      Dict.insert (.str f.name) (Entry.ofTarget os (.str f.name) (.function f))
        (ofFunctions os fs) := by
  simp [ofFunctions, Dict.ofList, Dict.insertAll_append]

/-- Functions become callables before or after they are brought under their names. -/
theorem map_byName (os : Objects) (fs : List FunctionRef) :
    (byName fs).map (fun e => (e.1, Entry.ofTarget os e.1 e.2)) = ofFunctions os fs := by
  induction fs using List.reverseRecOn with
  | nil => rfl
  | append_singleton fs f ih =>
    rw [byName_concat, ofFunctions_concat, ← ih]
    exact Dict.map_insert _ (texts_byName fs) f.name _

/-- A name is listed for the last function that has it. -/
theorem get?_ofFunctions (os : Objects) (fs : List FunctionRef) (name : String) :
    Dict.get? (.str name) (ofFunctions os fs) =
      (fs.filter (·.name = name)).getLast?.map fun f =>
        Entry.ofTarget os (.str name) (.function f) := by
  rw [ofFunctions, Dict.get?_ofList_texts FunctionRef.name]
  refine Option.map_congr fun f hf => ?_
  have hn : f.name = name := by simpa using (List.mem_filter.mp (List.mem_of_getLast? hf)).2
  rw [hn]

theorem ofNamed_eq (entries : List (String × Value))
    (he : Dict.ofList (entries.map fun e => (Value.str e.1, e.2)) = byName fs) :
    ofNamed os entries = ofFunctions os fs := by
  rw [ofNamed, he, List.filter_eq_self.mpr fun _ => isCallable_of_mem, map_byName]

theorem ofNamed_named (os : Objects) (fs : List FunctionRef) :
    ofNamed os (named fs) = ofFunctions os fs := by
  refine ofNamed_eq _ ?_
  rw [named, List.map_map]
  rfl

theorem ofMapping_byName (os : Objects) (fs : List FunctionRef) :
    ofMapping os (byName fs) = ofFunctions os fs := by
  refine ofNamed_eq _ ?_
  rw [List.map_map]
  -- The mapping is filled once more, with what it holds already.
  exact (congrArg Dict.ofList (texts_of_names os.textOf fs)).trans (Dict.insertAll_ofList [] _)

/-- Nothing is listed for a mapping that is empty, and there are no functions then. -/
theorem ofListing_gives (hv : os.entries? v = some (byName fs)) :
    ofListing os owner (.gives v) = .ok (ofFunctions os fs) := by
  have hlist : Dict.ofList (ofFunctions os fs) = ofFunctions os fs := Dict.insertAll_ofList [] _
  have hempty : isEmptyValue v = true → ofFunctions os fs = [] := by
    intro h
    cases v with
    | map es =>
      cases es with
      | nil =>
        rw [← map_byName, ← Option.some.inj hv]
        rfl
      | cons e r => simp [isEmptyValue] at h
    | object name => simp [isEmptyValue] at h
    | _ => simp [Objects.entries?] at hv
  rw [ofListing]
  split
  · next h => rw [hempty h]
  · rw [hv]
    simp only [map_byName, hlist]

theorem ofNamed_entries {entries : List (Value × Item)}
    (he : itemEntries owner 0 entries = byName fs) :
    ofNamed os (os.functionEntries owner [] entries) = ofFunctions os fs := by
  rw [Objects.functionEntries, List.length_nil, he]
  exact ofMapping_byName os fs

theorem ofItems_own (os : Objects) (owner : String) (ss : List Signature) :
    ofItems os owner (ss.map fun s => (.str s.name, .function s)) =
      ofFunctions os (own owner ss) := by
  rw [ofItems, ofFunctions, own]
  congr 1
  refine List.ext_getElem? fun i => ?_
  simp only [List.getElem?_mapIdx, List.getElem?_map, Option.map_map]
  rfl

theorem ofValue_of_entries {es : List (Value × Value)} (hv : os.entries? v = some es) :
    ofValue os v = .ok (ofMapping os es) := by
  cases v with
  | map es' =>
    cases hv
    rfl
  | object name =>
    rw [Objects.entries?] at hv
    split at hv
    · next hl =>
      cases hv
      simp only [ofValue, hl]
    · cases hv
  | _ => cases hv

theorem functionEntries_own (os : Objects) (owner : String) (ss : List Signature) :
    os.functionEntries owner ss [] = named (own owner ss) := by
  refine List.ext_getElem? fun i => ?_
  simp [Objects.functionEntries, named, own, itemEntries, Dict.ofList, Function.comp_def]

/-- Whatever presents functions lists just these. -/
theorem ofValue_of_presents (h : Presents os fs root) :
    ofValue os root = .ok (ofFunctions os fs) := by
  cases h with
  | positional ho =>
    simp only [ofValue, ho, functionEntries_own, ofNamed_named]
  | named ho he =>
    simp only [ofValue, ho, ofNamed_entries he]
  | mapping he => rw [ofValue_of_entries he, ofMapping_byName]
  | gives ho he =>
    simp only [ofValue, ho]
    exact ofListing_gives he
  | lists ho =>
    simp only [ofValue, ho, ofListing, ofItems_own]

end Table

theorem Presents.exec_bind {g : Setting σ} (h : Presents g.host.objects fs root) (m : Machine σ) :
    exec (Scope.bind g root) m =
      (.ok ⟨root, .ok (Table.ofFunctions g.host.objects fs)⟩, m) := by
  have ht := Table.ofValue_of_presents h
  unfold Scope.bind
  split
  · next e =>
    cases h with
    | mapping he => cases he
  · rw [ht]
    rfl

/-- Functions make the same root in whichever way they are presented: the scope of it has the
callables that the functions themselves have under their names, of which a later one takes the
place of an earlier one. A value is answered alike by all of them, with any variables, any hook and
from any machine: with the same results or the same fault, the same runs of host functions, the same
state of the host and as many errors logged. -/
theorem function_roots_answer_alike (g : Setting σ) (h : Presents g.host.objects fs root)
    (context : Dict Value) (request : Value) (m : Machine σ) :
    let direct := Scope.ofFunctions g.host.objects (named fs)
    exec (Scope.bind g root) m = (.ok ⟨root, direct.callables⟩, m) ∧
      (∀ name, Dict.get? (.str name) direct.table =
        (fs.filter (·.name = name)).getLast?.map fun f =>
          Entry.ofTarget g.host.objects (.str name) (.function f)) ∧
      ∃ ending m₁ m₂, exec (Answer.answerValue g direct context request) m = (ending, m₁) ∧
        exec (Scope.bind g root >>= fun s => Answer.answerValue g s context request) m =
          (ending, m₂) ∧ m₁.Alike m₂ := by
  intro direct
  have hd : direct.callables = .ok (Table.ofFunctions g.host.objects fs) :=
    congrArg Except.ok (Table.ofNamed_named _ fs)
  have hb : exec (Scope.bind g root) m = (.ok ⟨root, direct.callables⟩, m) := by
    rw [hd]
    exact h.exec_bind m
  refine ⟨hb, ?_, ?_⟩
  · intro name
    rw [Scope.table, hd]
    exact Table.get?_ofFunctions _ fs name
  · have hs : direct.Related Machine.Alike g g ⟨root, direct.callables⟩ := g.related_scope rfl
    obtain ⟨hend, hm⟩ := g.simulates_alike.answerValue hs context request m m m.alike_refl
    refine ⟨_, _, _, rfl, ?_, hm⟩
    rw [exec_bind_ok hb]
    exact Prod.ext hend.symm rfl

namespace Sample

/-- Two ways to roll a die, under one name, and a name. -/
def dice : List Signature :=
  [⟨"roll", [⟨true, false⟩], .empty⟩, ⟨"name", [⟨false, true⟩], .empty⟩,
    ⟨"roll", [⟨true, false⟩, ⟨false, true⟩], .between 1 (some 1)⟩]

/-- The dice themselves, and others that present the functions of the dice. -/
def gameWorld : World where
  objects :=
    [("dice", .functions dice []),
      ("cup", .functions [] [(.str "roll", .value (.function ⟨"dice", 2, "roll"⟩)),
        (.str "name", .value (.function ⟨"dice", 1, "name"⟩))]),
      ("dealer", .lister (.gives (.map (byName (own "dice" dice)))))]
  scripts := [("dice", .actions [.count "rolls", .fail, .argument 0])]

def game : Setting Store := ⟨gameWorld.host, none⟩

/-- A roll with the later function of the name, one that this function does not take, and a name
that is no data. -/
def rolls : Value :=
  .map [(.str "a", .str "roll(6)"), (.str "b", .str "roll()"), (.str "c", .str "name()")]

def rollsAnswer : Dict Value :=
  [(.str "a", .str "6"), (.str "b", .error CallError.methodError),
    (.str "c", .error CallError.methodAccess)]

/-- A root that presents the dice, what it answers, and that one failure is logged. -/
def PresentsDice (root : Value) : Prop :=
  Presents game.host.objects (own "dice" dice) root ∧
    (exec (Answer.run game root rolls) World.initial).1 = .ok rollsAnswer ∧
    (exec (Answer.run game root rolls) World.initial).2.logged = 1

theorem dice_cup_and_dealer_present_dice :
    PresentsDice (.object "dice") ∧ PresentsDice (.object "cup") ∧
      PresentsDice (.map (byName (own "dice" dice))) ∧ PresentsDice (.object "dealer") := by
  have hd : (exec (Answer.runFunctions game (named (own "dice" dice)) rolls) World.initial).1 =
        .ok rollsAnswer ∧
      (exec (Answer.runFunctions game (named (own "dice" dice)) rolls) World.initial).2.logged =
        1 := by
    decide +kernel
  have key : ∀ root, Presents game.host.objects (own "dice" dice) root → PresentsDice root := by
    intro root h
    obtain ⟨-, -, ending, m₁, m₂, h₁, h₂, hm⟩ :=
      function_roots_answer_alike game h [] rolls World.initial
    have h₃ : exec (Answer.run game root rolls) World.initial = (ending, m₂) := h₂
    rw [Answer.runFunctions, h₁] at hd
    refine ⟨h, ?_, ?_⟩
    · rw [h₃]
      exact hd.1
    · rw [h₃]
      exact hm.logged.trans hd.2
  exact ⟨key _ (.positional rfl), key _ (.named rfl (by decide +kernel)), key _ (.mapping rfl),
    key _ (.gives rfl rfl)⟩

end Sample

end CallTree
