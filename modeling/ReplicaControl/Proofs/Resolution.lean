import Mathlib.Data.List.Nodup
import ReplicaControl.NamespaceState
import ReplicaControl.Proofs.Request

/-!
# Resolution of states

* `State.firstRepeated?_eq_some_iff`, `firstRepeated?_eq_none_iff` — the first name that is declared
  a second time.
* `State.IsCandidate`, `Prevails` — the declared states among some names, and the one of them that
  takes precedence.  `prevails_iff_select`: it is the one that is selected.
* `World.StatesAnswer` — no fault meets the requests for declarations and selections.
* `NamespaceState.ofSelections` — what a resolution makes of declarations and selections;
  `resolve_eq`: it makes that of them where the sources answer.
* `IsUnresolved` — why no state holds.
* `resolution_exact` — which state holds in a namespace, and why none does.
-/

namespace ReplicaControl

namespace State

/-! ## Declarations -/

theorem firstRepeatedAfter?_eq_some_iff {seen : List String} {definitions : List State}
    {name : String} (hseen : seen.Nodup) :
    firstRepeatedAfter? seen definitions = some name ↔ ∃ before d after,
      definitions = before ++ d :: after ∧ (before.map State.name ++ seen).Nodup ∧
        d.name ∈ before.map State.name ++ seen ∧ d.name = name := by
  induction definitions generalizing seen with
  | nil => simp [firstRepeatedAfter?]
  | cons d ds ih =>
    rw [firstRepeatedAfter?]
    split
    · rename_i hmem
      constructor
      · intro h
        cases h
        exact ⟨[], d, ds, rfl, hseen, hmem, rfl⟩
      · rintro ⟨before, d', after, hsplit, hnodup, -, rfl⟩
        cases before with
        | nil =>
          cases hsplit
          rfl
        | cons b before =>
          -- the first declaration repeats a name already
          cases hsplit
          exact absurd (List.mem_append_right _ hmem) (List.nodup_cons.1 hnodup).1
    · rename_i hnew
      rw [ih (List.nodup_cons.2 ⟨hnew, hseen⟩)]
      constructor
      · rintro ⟨before, d', after, rfl, hnodup, hagain, rfl⟩
        refine ⟨d :: before, d', after, rfl, List.nodup_middle.1 hnodup, ?_, rfl⟩
        exact (List.perm_middle.mem_iff).1 hagain
      · rintro ⟨before, d', after, hsplit, hnodup, hagain, rfl⟩
        cases before with
        | nil =>
          cases hsplit
          exact absurd hagain hnew
        | cons b before =>
          cases hsplit
          exact ⟨before, d', after, rfl, List.nodup_middle.2 hnodup,
            (List.perm_middle.mem_iff).2 hagain, rfl⟩

theorem firstRepeatedAfter?_eq_none_iff {seen : List String} {definitions : List State}
    (hseen : seen.Nodup) : firstRepeatedAfter? seen definitions = none ↔
      (definitions.map State.name ++ seen).Nodup := by
  induction definitions generalizing seen with
  | nil => exact iff_of_true rfl hseen
  | cons d ds ih =>
    rw [firstRepeatedAfter?]
    split
    · rename_i hmem
      refine iff_of_false nofun fun hnodup => ?_
      exact (List.nodup_cons.1 hnodup).1 (List.mem_append_right _ hmem)
    · rename_i hnew
      rw [ih (List.nodup_cons.2 ⟨hnew, hseen⟩)]
      exact List.nodup_middle

/-- The name that is reported is that of the first declaration whose name was declared before. -/
theorem firstRepeated?_eq_some_iff {definitions : List State} {name : String} :
    firstRepeated? definitions = some name ↔ ∃ before d after,
      definitions = before ++ d :: after ∧ (before.map State.name).Nodup ∧
        d.name ∈ before.map State.name ∧ d.name = name := by
  rw [firstRepeated?, firstRepeatedAfter?_eq_some_iff List.nodup_nil]
  simp only [List.append_nil]

theorem firstRepeated?_eq_none_iff {definitions : List State} :
    firstRepeated? definitions = none ↔ (definitions.map State.name).Nodup := by
  rw [firstRepeated?, firstRepeatedAfter?_eq_none_iff List.nodup_nil, List.append_nil]

/-! ## Candidates -/

/-- A state is declared, with a name that is among some names. -/
structure IsCandidate (definitions : List State) (names : List String) (s : State) : Prop where
  declared : s ∈ definitions
  named : s.name ≠ ""
  selected : s.name ∈ names

/-- Of the declared states that the cluster or a namespace selects, a state has the smallest
priority number; and if the namespace selects one with that number, it is that one. -/
structure Prevails (definitions : List State) (cluster ns : List String) (s : State) : Prop where
  candidate : IsCandidate definitions (cluster ++ ns) s
  least : ∀ t, IsCandidate definitions (cluster ++ ns) t → s.priority ≤ t.priority
  tie : ∀ t, IsCandidate definitions ns t → t.priority = s.priority → t = s

variable {definitions : List State} {cluster selected : Option String} {s : State}

theorem isCandidate_append {names names' : List String} :
    IsCandidate definitions (names ++ names') s ↔
      IsCandidate definitions names s ∨ IsCandidate definitions names' s := by
  constructor
  · rintro ⟨hdeclared, hnamed, hselected⟩
    exact (List.mem_append.1 hselected).imp (⟨hdeclared, hnamed, ·⟩) (⟨hdeclared, hnamed, ·⟩)
  · rintro (⟨hdeclared, hnamed, hselected⟩ | ⟨hdeclared, hnamed, hselected⟩)
    · exact ⟨hdeclared, hnamed, List.mem_append_left _ hselected⟩
    · exact ⟨hdeclared, hnamed, List.mem_append_right _ hselected⟩

/-- If no name is declared twice, the first declaration of a name is the only one. -/
theorem find?_name_eq_some_iff (hdistinct : (definitions.map State.name).Nodup) {name : String} :
    definitions.find? (fun d => d.name == name) = some s ↔ s ∈ definitions ∧ s.name = name := by
  have hfound : ∀ d, definitions.find? (fun d => d.name == name) = some d →
      d ∈ definitions ∧ d.name = name := by
    intro d hd
    have hname := List.find?_some hd
    exact ⟨List.mem_of_find?_eq_some hd, eq_of_beq hname⟩
  refine ⟨hfound s, fun ⟨hdeclared, hname⟩ => ?_⟩
  cases hd : definitions.find? (fun d => d.name == name) with
  | none => exact absurd (beq_iff_eq.2 hname) (List.find?_eq_none.1 hd s hdeclared)
  | some d =>
    obtain ⟨hd, hname'⟩ := hfound d hd
    exact congrArg some (List.inj_on_of_nodup_map hdistinct hd hdeclared (hname'.trans hname.symm))

/-- If no name is declared twice, what is found for a name is the declared state of that name. -/
theorem isCandidate_iff_find (hdistinct : (definitions.map State.name).Nodup)
    {name : Option String} :
    IsCandidate definitions name.toList s ↔ find definitions name = s ∧ s.name ≠ "" := by
  cases name with
  | none =>
    refine iff_of_false (fun h => List.not_mem_nil h.selected) ?_
    rintro ⟨rfl, hnamed⟩
    exact hnamed rfl
  | some name =>
    constructor
    · rintro ⟨hdeclared, hnamed, hselected⟩
      have hfind := (find?_name_eq_some_iff hdistinct).2
        ⟨hdeclared, List.mem_singleton.1 hselected⟩
      exact ⟨congrArg (·.getD empty) hfind, hnamed⟩
    · rintro ⟨rfl, hnamed⟩
      cases hfind : definitions.find? (fun d => d.name == name) with
      | none =>
        have hempty : find definitions (some name) = empty := congrArg (·.getD empty) hfind
        exact absurd (congrArg State.name hempty) hnamed
      | some d =>
        have hfound : find definitions (some name) = d := congrArg (·.getD empty) hfind
        obtain ⟨hdeclared, hname⟩ := (find?_name_eq_some_iff hdistinct).1 hfind
        exact hfound ▸ ⟨hdeclared, hfound ▸ hnamed, List.mem_singleton.2 hname⟩

/-- Of two states each of which may stand for none, the second takes precedence on equal priority
numbers, else the one with the smaller number. -/
theorem prioritize_eq_iff {a b : State} : prioritize a b = s ∧ s.name ≠ "" ↔
    (a = s ∨ b = s) ∧ s.name ≠ "" ∧ (a.name ≠ "" → s.priority ≤ a.priority) ∧
      (b.name ≠ "" → s.priority ≤ b.priority ∧ (b.priority = s.priority → b = s)) := by
  rw [prioritize]
  simp only [isEmpty, beq_iff_eq]
  -- either state may stand for none; if neither does, the priorities are compared
  split
  · grind
  split
  · grind
  split <;> grind

theorem prioritize_named {a b : State} :
    (prioritize a b).name ≠ "" ↔ a.name ≠ "" ∨ b.name ≠ "" := by
  rw [prioritize]
  simp only [isEmpty, beq_iff_eq]
  grind

section Distinct

variable (hdistinct : (definitions.map State.name).Nodup)

include hdistinct

theorem isCandidate_append_iff_find :
    IsCandidate definitions (cluster.toList ++ selected.toList) s ↔
      (find definitions cluster = s ∨ find definitions selected = s) ∧ s.name ≠ "" := by
  rw [isCandidate_append, isCandidate_iff_find hdistinct, isCandidate_iff_find hdistinct,
    or_and_right]

/-- A state is selected if there is a candidate. -/
theorem exists_isCandidate_iff_select :
    (∃ t, IsCandidate definitions (cluster.toList ++ selected.toList) t) ↔
      (select definitions cluster selected).name ≠ "" := by
  simp only [isCandidate_append_iff_find hdistinct]
  rw [select, prioritize_named]
  constructor
  · rintro ⟨t, rfl | rfl, hnamed⟩
    · exact .inl hnamed
    · exact .inr hnamed
  · rintro (hnamed | hnamed)
    · exact ⟨_, .inl rfl, hnamed⟩
    · exact ⟨_, .inr rfl, hnamed⟩

/-- The state that is selected is the one that prevails. -/
theorem prevails_iff_select : Prevails definitions cluster.toList selected.toList s ↔
    select definitions cluster selected = s ∧ s.name ≠ "" := by
  have hselected : ∀ t, IsCandidate definitions selected.toList t ↔
      find definitions selected = t ∧ t.name ≠ "" := fun t => isCandidate_iff_find hdistinct
  have heither : ∀ t, IsCandidate definitions (cluster.toList ++ selected.toList) t ↔
      (find definitions cluster = t ∨ find definitions selected = t) ∧ t.name ≠ "" :=
    fun t => isCandidate_append_iff_find hdistinct
  rw [select, prioritize_eq_iff]
  constructor
  · rintro ⟨hcandidate, hleast, htie⟩
    obtain ⟨hfound, hnamed⟩ := (heither s).1 hcandidate
    exact ⟨hfound, hnamed, fun ha => hleast _ ((heither _).2 ⟨.inl rfl, ha⟩), fun hb =>
      ⟨hleast _ ((heither _).2 ⟨.inr rfl, hb⟩), htie _ ((hselected _).2 ⟨rfl, hb⟩)⟩⟩
  · rintro ⟨hfound, hnamed, hfirst, hsecond⟩
    refine ⟨(heither s).2 ⟨hfound, hnamed⟩, fun t ht => ?_, fun t ht htie => ?_⟩
    · obtain ⟨rfl | rfl, ht⟩ := (heither t).1 ht
      · exact hfirst ht
      · exact (hsecond ht).1
    · obtain ⟨rfl, ht⟩ := (hselected t).1 ht
      exact (hsecond ht).2 htie

end Distinct

/-- The order of the declarations does not matter. -/
theorem IsCandidate.perm {definitions' : List State} {names : List String}
    (h : definitions.Perm definitions') :
    IsCandidate definitions names s ↔ IsCandidate definitions' names s :=
  ⟨fun ⟨hd, hn, hs⟩ => ⟨h.mem_iff.1 hd, hn, hs⟩, fun ⟨hd, hn, hs⟩ => ⟨h.mem_iff.2 hd, hn, hs⟩⟩

theorem Prevails.perm {definitions' : List State} {cluster selected : List String}
    (h : definitions.Perm definitions') (hs : Prevails definitions cluster selected s) :
    Prevails definitions' cluster selected s where
  candidate := (IsCandidate.perm h).1 hs.candidate
  least t ht := hs.least t ((IsCandidate.perm h).2 ht)
  tie t ht := hs.tie t ((IsCandidate.perm h).2 ht)

end State

/-! ## Requests that are answered -/

/-- What is pending for a request of one sort does not meet one of another sort. -/
theorem Fault.next_of_ne {r r' : Request} (h : r ≠ r') (faults : List Fault) :
    (Fault.next r' (Fault.next r faults).2).1 = (Fault.next r' faults).1 := by
  induction faults with
  | nil => rfl
  | cons f rest ih =>
    by_cases hr : f.request = r ∧ 0 < f.count
    · -- the fault is used, and remains one for the same sort
      have hother : f.request ≠ r' := fun h' => h (hr.1.symm.trans h')
      rw [Fault.next, if_pos hr]
      split <;> simp only [Fault.next, hother, false_and, if_false]
    · have hskip : Fault.next r (f :: rest) =
          ((Fault.next r rest).1, f :: (Fault.next r rest).2) := by rw [Fault.next, if_neg hr]
      rw [hskip, Fault.next, Fault.next]
      split
      · split <;> rfl
      · exact ih

namespace World

/-- The sources of declared states and of selected ones answer. -/
def StatesAnswer (w : World) : Prop :=
  ∀ r ∈ [Request.definitions, .clusterStates, .namespaceStates], (w.intercept r).1 = none

instance (w : World) : Decidable w.StatesAnswer :=
  inferInstanceAs (Decidable (∀ r ∈ _, _ = none))

/-- A request that no fault meets is answered by the cluster. -/
theorem ask_of_intercept {α : Type} {w : World} {r : Request} (h : (w.intercept r).1 = none)
    (refused : Fault → α) (answer : Cluster → α) :
    w.ask r refused answer = (answer w.cluster, (w.intercept r).2) := by
  have hpair : w.intercept r = (none, (w.intercept r).2) := Prod.ext h rfl
  rw [ask, hpair]
  rfl

theorem intercept_of_ne {r r' : Request} (h : r ≠ r') (w : World) :
    ((w.intercept r).2.intercept r').1 = (w.intercept r').1 :=
  Fault.next_of_ne h w.faults

end World

namespace NamespaceState

open State

variable {definitions : List State} {cluster selected : List String} {ns : String} {s : State}

/-! ## The steps of a resolution -/

/-- There are declarations, and no name is declared twice. -/
structure Usable (definitions : List State) : Prop where
  nonempty : definitions ≠ []
  distinct : (definitions.map State.name).Nodup

theorem checkDefinitions_eq_ok_iff :
    checkDefinitions definitions = .ok () ↔ Usable definitions := by
  rw [checkDefinitions]
  split
  · rename_i hempty
    exact iff_of_false nofun fun h => h.nonempty hempty
  · rename_i hnonempty
    split
    · rename_i name hrepeated
      refine iff_of_false nofun fun h => ?_
      rw [firstRepeated?_eq_none_iff.2 h.distinct] at hrepeated
      cases hrepeated
    · rename_i hdistinct
      exact iff_of_true rfl ⟨hnonempty, firstRepeated?_eq_none_iff.1 hdistinct⟩

theorem checkDefinitions_eq_error_iff {e : Unresolved} : checkDefinitions definitions = .error e ↔
    (definitions = [] ∧ e = .noDefinitions) ∨
      ∃ name, firstRepeated? definitions = some name ∧ e = .duplicate name := by
  rw [checkDefinitions]
  split
  · rename_i hempty
    subst hempty
    simp only [firstRepeated?, firstRepeatedAfter?, true_and, reduceCtorEq, false_and,
      exists_false, or_false, Except.error.injEq]
    exact eq_comm
  · rename_i hnonempty
    simp only [hnonempty, false_and, false_or]
    split <;> rename_i hrepeated
    · simp only [hrepeated, Option.some.injEq, exists_eq_left', Except.error.injEq]
      exact eq_comm
    · simp only [hrepeated, reduceCtorEq, false_and, exists_false]

theorem atMostOne_of_length_le (scope : Scope) {names : List String} (h : names.length ≤ 1) :
    ∃ name, names = name.toList ∧ atMostOne scope names = .ok name :=
  match names, h with
  | [], _ => ⟨none, rfl, rfl⟩
  | [name], _ => ⟨some name, rfl, rfl⟩

theorem atMostOne_of_lt {scope : Scope} {names : List String} (h : 1 < names.length) :
    atMostOne scope names = .error (.tooMany scope names.length) :=
  match names, h with
  | _ :: _ :: _, _ => rfl

section Choice

variable {cluster selected : Option String}

/-- A state is chosen if one is declared that is selected, and it is the one that prevails. -/
theorem choose_eq_ok_iff (hdistinct : (definitions.map State.name).Nodup) :
    choose definitions ns cluster selected = .ok s ↔
      Prevails definitions cluster.toList selected.toList s := by
  rw [choose]
  split
  · rename_i hnone
    obtain ⟨rfl, rfl⟩ := hnone
    exact iff_of_false nofun fun h => List.not_mem_nil h.candidate.selected
  · rw [prevails_iff_select hdistinct]
    simp only [State.isEmpty, beq_iff_eq]
    split
    · rename_i hempty
      refine iff_of_false nofun ?_
      rintro ⟨rfl, hnamed⟩
      exact hnamed hempty
    · rename_i hnamed
      constructor
      · intro h
        cases h
        exact ⟨rfl, hnamed⟩
      · rintro ⟨rfl, -⟩
        rfl

theorem choose_eq_error_iff (hdistinct : (definitions.map State.name).Nodup) {e : Unresolved} :
    choose definitions ns cluster selected = .error e ↔
      (cluster = none ∧ selected = none) ∧ e = .nothingSelected ns ∨
      ¬ (cluster = none ∧ selected = none) ∧
        (∀ t, ¬ IsCandidate definitions (cluster.toList ++ selected.toList) t) ∧
        e = .notDefined ns := by
  rw [← not_exists, exists_isCandidate_iff_select hdistinct, Decidable.not_not, choose]
  simp only [State.isEmpty, beq_iff_eq]
  split <;> rename_i hnone
  · simp only [hnone, and_self, not_true, false_and, or_false, true_and, Except.error.injEq]
    exact eq_comm
  · simp only [hnone, not_false_eq_true, false_and, false_or, true_and]
    split <;> rename_i hempty
    · simp only [hempty, true_and, Except.error.injEq]
      exact eq_comm
    · simp only [hempty, false_and, reduceCtorEq]

end Choice

/-- What a resolution makes of declarations and selections. -/
def ofSelections (definitions : List State) (cluster selected : List String) (ns : String) :
    Except Unresolved State := do
  checkDefinitions definitions
  let cluster ← atMostOne .cluster cluster
  let selected ← atMostOne .ns selected
  choose definitions ns cluster selected

/-- Where the sources answer, a resolution goes by the declarations and the selections alone. -/
theorem resolve_eq {w : World} (h : w.StatesAnswer) (ns : String) : (resolve w ns).1 =
    ofSelections w.cluster.definitions w.cluster.clusterStates (w.cluster.statesOf ns) ns := by
  obtain ⟨w₁, hw₁⟩ : ∃ w₁, w₁ = (w.intercept .definitions).2 := ⟨_, rfl⟩
  obtain ⟨w₂, hw₂⟩ : ∃ w₂, w₂ = (w₁.intercept .clusterStates).2 := ⟨_, rfl⟩
  obtain ⟨w₃, hw₃⟩ : ∃ w₃, w₃ = (w₂.intercept .namespaceStates).2 := ⟨_, rfl⟩
  have hcluster₁ : w₁.cluster = w.cluster := hw₁ ▸ rfl
  have hcluster₂ : w₂.cluster = w.cluster := hw₂ ▸ hcluster₁
  have hdefinitions : w.fetchDefinitions = (.ok w.cluster.definitions, w₁) :=
    hw₁ ▸ World.ask_of_intercept (h .definitions (by decide)) _ _
  have hselected₁ : w₁.fetchClusterStates = (.ok w.cluster.clusterStates, w₂) := by
    have hanswer : (w₁.intercept .clusterStates).1 = none := by
      rw [hw₁, World.intercept_of_ne (by decide)]
      exact h .clusterStates (by decide)
    rw [World.fetchClusterStates, World.ask_of_intercept hanswer, ← hw₂, hcluster₁]
  have hselected₂ : w₂.fetchNamespaceStates ns = (.ok (w.cluster.statesOf ns), w₃) := by
    have hanswer : (w₂.intercept .namespaceStates).1 = none := by
      rw [hw₂, World.intercept_of_ne (by decide), hw₁, World.intercept_of_ne (by decide)]
      exact h .namespaceStates (by decide)
    rw [World.fetchNamespaceStates, World.ask_of_intercept hanswer, ← hw₃, hcluster₂]
  rw [resolve, hdefinitions, ofSelections]
  cases hcheck : checkDefinitions w.cluster.definitions with
  | error e =>
    simp only [hcheck]
    rfl
  | ok u =>
    simp only [hcheck, hselected₁]
    cases hone : atMostOne .cluster w.cluster.clusterStates with
    | error e => rfl
    | ok name =>
      simp only [hselected₂]
      cases hone' : atMostOne .ns (w.cluster.statesOf ns) with
      | error e => rfl
      | ok name' => rfl

/-! ## Why no state holds -/

/-- Why declarations and selections lead to no state: the first of these that applies. -/
inductive IsUnresolved (definitions : List State) (cluster selected : List String) (ns : String) :
    Unresolved → Prop
  | noDefinitions (hnone : definitions = []) :
    IsUnresolved definitions cluster selected ns .noDefinitions
  /-- The first declaration of a name that was declared before. -/
  | duplicate {before : List State} {d : State} {after : List State}
      (hsplit : definitions = before ++ d :: after) (hbefore : (before.map State.name).Nodup)
      (hagain : d.name ∈ before.map State.name) :
    IsUnresolved definitions cluster selected ns (.duplicate d.name)
  | tooManyOfCluster (husable : Usable definitions) (hmany : 1 < cluster.length) :
    IsUnresolved definitions cluster selected ns (.tooMany .cluster cluster.length)
  | tooManyOfNamespace (husable : Usable definitions) (hcluster : cluster.length ≤ 1)
      (hmany : 1 < selected.length) :
    IsUnresolved definitions cluster selected ns (.tooMany .ns selected.length)
  | nothingSelected (husable : Usable definitions) (hcluster : cluster = [])
      (hselected : selected = []) :
    IsUnresolved definitions cluster selected ns (.nothingSelected ns)
  | notDefined (husable : Usable definitions) (hcluster : cluster.length ≤ 1)
      (hselected : selected.length ≤ 1) (hsome : ¬ (cluster = [] ∧ selected = []))
      (hnone : ∀ t, ¬ IsCandidate definitions (cluster ++ selected) t) :
    IsUnresolved definitions cluster selected ns (.notDefined ns)

/-- Declarations that can be used and at most one selection in each scope lead to a choice. -/
theorem ofSelections_toList (husable : Usable definitions) (cluster selected : Option String) :
    ofSelections definitions cluster.toList selected.toList ns =
      choose definitions ns cluster selected := by
  rw [ofSelections, checkDefinitions_eq_ok_iff.2 husable]
  cases cluster <;> cases selected <;> rfl

theorem ofSelections_of_tooMany (husable : Usable definitions) (hmany : 1 < cluster.length) :
    ofSelections definitions cluster selected ns = .error (.tooMany .cluster cluster.length) := by
  rw [ofSelections, checkDefinitions_eq_ok_iff.2 husable, atMostOne_of_lt hmany]
  rfl

theorem ofSelections_of_tooMany_ns (husable : Usable definitions) (hcluster : cluster.length ≤ 1)
    (hmany : 1 < selected.length) :
    ofSelections definitions cluster selected ns = .error (.tooMany .ns selected.length) := by
  obtain ⟨name, rfl, hone⟩ := atMostOne_of_length_le .cluster hcluster
  rw [ofSelections, checkDefinitions_eq_ok_iff.2 husable, hone, atMostOne_of_lt hmany]
  rfl

/-- The ways of a resolution: an error of the checks, or a choice. -/
theorem ofSelections_cases (definitions : List State) (cluster selected : List String)
    (ns : String) :
    (∃ e, ¬ Usable definitions ∧ checkDefinitions definitions = .error e ∧
      ofSelections definitions cluster selected ns = .error e) ∨
    (Usable definitions ∧ 1 < cluster.length ∧
      ofSelections definitions cluster selected ns =
        .error (.tooMany .cluster cluster.length)) ∨
    (Usable definitions ∧ cluster.length ≤ 1 ∧ 1 < selected.length ∧
      ofSelections definitions cluster selected ns = .error (.tooMany .ns selected.length)) ∨
    (∃ name name' : Option String, Usable definitions ∧ cluster.length ≤ 1 ∧
      selected.length ≤ 1 ∧ cluster = name.toList ∧ selected = name'.toList ∧
      ofSelections definitions cluster selected ns = choose definitions ns name name') := by
  cases hcheck : checkDefinitions definitions with
  | error e =>
    refine .inl ⟨e, fun husable => ?_, rfl, ?_⟩
    · rw [checkDefinitions_eq_ok_iff.2 husable] at hcheck
      cases hcheck
    · rw [ofSelections, hcheck]
      rfl
  | ok u =>
    have husable := checkDefinitions_eq_ok_iff.1 hcheck
    rcases Nat.lt_or_ge 1 cluster.length with hmany | hcluster
    · exact .inr (.inl ⟨husable, hmany, ofSelections_of_tooMany husable hmany⟩)
    rcases Nat.lt_or_ge 1 selected.length with hmany | hselected
    · exact .inr (.inr (.inl
        ⟨husable, hcluster, hmany, ofSelections_of_tooMany_ns husable hcluster hmany⟩))
    obtain ⟨name, rfl, -⟩ := atMostOne_of_length_le .cluster hcluster
    obtain ⟨name', rfl, -⟩ := atMostOne_of_length_le .ns hselected
    exact .inr (.inr (.inr ⟨name, name', husable, hcluster, hselected, rfl, rfl,
      ofSelections_toList husable name name'⟩))

/-- A state holds if the declarations can be used, each scope selects at most one name, and a
declared state is selected; it is the one that prevails. -/
theorem ofSelections_eq_ok_iff : ofSelections definitions cluster selected ns = .ok s ↔
    Usable definitions ∧ cluster.length ≤ 1 ∧ selected.length ≤ 1 ∧
      Prevails definitions cluster selected s := by
  rcases ofSelections_cases definitions cluster selected ns with ⟨e, hnot, -, heq⟩ |
    ⟨-, hmany, heq⟩ | ⟨-, -, hmany, heq⟩ |
    ⟨name, name', husable, hcluster, hselected, rfl, rfl, heq⟩ <;> rw [heq]
  · exact iff_of_false nofun fun h => hnot h.1
  · exact iff_of_false nofun fun h => Nat.not_le.2 hmany h.2.1
  · exact iff_of_false nofun fun h => Nat.not_le.2 hmany h.2.2.1
  · rw [choose_eq_ok_iff husable.distinct]
    exact ⟨fun h => ⟨husable, hcluster, hselected, h⟩, fun h => h.2.2.2⟩

/-- No state holds for the first of the reasons that applies. -/
theorem ofSelections_eq_error_iff {e : Unresolved} :
    ofSelections definitions cluster selected ns = .error e ↔
      IsUnresolved definitions cluster selected ns e := by
  constructor
  · intro h
    rcases ofSelections_cases definitions cluster selected ns with ⟨e', -, hcheck, heq⟩ |
      ⟨husable, hmany, heq⟩ | ⟨husable, hcluster, hmany, heq⟩ |
      ⟨name, name', husable, hcluster, hselected, rfl, rfl, heq⟩ <;> rw [heq] at h
    · cases h
      rcases checkDefinitions_eq_error_iff.1 hcheck with ⟨hnone, rfl⟩ | ⟨name, hrepeated, rfl⟩
      · exact .noDefinitions hnone
      · obtain ⟨before, d, after, hsplit, hbefore, hagain, rfl⟩ :=
          firstRepeated?_eq_some_iff.1 hrepeated
        exact .duplicate hsplit hbefore hagain
    · cases h
      exact .tooManyOfCluster husable hmany
    · cases h
      exact .tooManyOfNamespace husable hcluster hmany
    · rcases (choose_eq_error_iff husable.distinct).1 h with
        ⟨⟨rfl, rfl⟩, rfl⟩ | ⟨hsome, hnone, rfl⟩
      · exact .nothingSelected husable rfl rfl
      · rw [← Option.toList_eq_nil_iff, ← Option.toList_eq_nil_iff] at hsome
        exact .notDefined husable hcluster hselected hsome hnone
  · intro h
    cases h with
    | noDefinitions hnone =>
      rw [hnone]
      rfl
    | @duplicate before d after hsplit hbefore hagain =>
      have hrepeated : firstRepeated? definitions = some d.name :=
        firstRepeated?_eq_some_iff.2 ⟨before, d, after, hsplit, hbefore, hagain, rfl⟩
      rw [ofSelections, checkDefinitions_eq_error_iff.2 (.inr ⟨d.name, hrepeated, rfl⟩)]
      rfl
    | tooManyOfCluster husable hmany => exact ofSelections_of_tooMany husable hmany
    | tooManyOfNamespace husable hcluster hmany =>
      exact ofSelections_of_tooMany_ns husable hcluster hmany
    | nothingSelected husable hcluster hselected =>
      rw [hcluster, hselected]
      exact ofSelections_toList husable none none
    | notDefined husable hcluster hselected hsome hnone =>
      obtain ⟨name, rfl, -⟩ := atMostOne_of_length_le .cluster hcluster
      obtain ⟨name', rfl, -⟩ := atMostOne_of_length_le .ns hselected
      rw [Option.toList_eq_nil_iff, Option.toList_eq_nil_iff] at hsome
      rw [ofSelections_toList husable, choose_eq_error_iff husable.distinct]
      exact .inr ⟨hsome, hnone, rfl⟩

/-- There is a state that holds if there is a candidate. -/
theorem exists_ofSelections_eq_ok_iff :
    (∃ s, ofSelections definitions cluster selected ns = .ok s) ↔
      Usable definitions ∧ cluster.length ≤ 1 ∧ selected.length ≤ 1 ∧
        ∃ t, IsCandidate definitions (cluster ++ selected) t := by
  simp only [ofSelections_eq_ok_iff]
  constructor
  · rintro ⟨s, husable, hcluster, hselected, hs⟩
    exact ⟨husable, hcluster, hselected, s, hs.candidate⟩
  · rintro ⟨husable, hcluster, hselected, hsome⟩
    obtain ⟨name, rfl, -⟩ := atMostOne_of_length_le .cluster hcluster
    obtain ⟨name', rfl, -⟩ := atMostOne_of_length_le .ns hselected
    have hnamed := (exists_isCandidate_iff_select husable.distinct).1 hsome
    exact ⟨_, husable, hcluster, hselected, (prevails_iff_select husable.distinct).2 ⟨rfl, hnamed⟩⟩

/-- The order of the declarations does not matter for the state that holds. -/
theorem ofSelections_eq_ok_of_perm {definitions' : List State}
    (hperm : definitions.Perm definitions')
    (h : ofSelections definitions cluster selected ns = .ok s) :
    ofSelections definitions' cluster selected ns = .ok s := by
  obtain ⟨⟨hnonempty, hdistinct⟩, hcluster, hselected, hs⟩ := ofSelections_eq_ok_iff.1 h
  refine ofSelections_eq_ok_iff.2 ⟨⟨?_, ?_⟩, hcluster, hselected, hs.perm hperm⟩
  · rintro rfl
    exact hnonempty hperm.eq_nil
  · exact (hperm.map State.name).nodup_iff.1 hdistinct

/-- Where the sources answer, a state holds in a namespace if there are declarations, no name is
declared twice, cluster and namespace select at most one name each, and a declared state is
selected.  The state that holds is the one of these that prevails, in whatever order the states are
declared.  Otherwise the first reason that applies is reported. -/
theorem resolution_exact {w : World} (h : w.StatesAnswer) (ns : String) :
    ((∃ s, (resolve w ns).1 = .ok s) ↔
      Usable w.cluster.definitions ∧ w.cluster.clusterStates.length ≤ 1 ∧
        (w.cluster.statesOf ns).length ≤ 1 ∧
        ∃ t, IsCandidate w.cluster.definitions
          (w.cluster.clusterStates ++ w.cluster.statesOf ns) t) ∧
    (∀ s, (resolve w ns).1 = .ok s →
      Prevails w.cluster.definitions w.cluster.clusterStates (w.cluster.statesOf ns) s) ∧
    (∀ w' : World, w'.StatesAnswer → w.cluster.definitions.Perm w'.cluster.definitions →
      w'.cluster.clusterStates = w.cluster.clusterStates →
      w'.cluster.statesOf ns = w.cluster.statesOf ns →
      ∀ s, (resolve w ns).1 = .ok s ↔ (resolve w' ns).1 = .ok s) ∧
    ∀ e, (resolve w ns).1 = .error e ↔
      IsUnresolved w.cluster.definitions w.cluster.clusterStates (w.cluster.statesOf ns) ns e := by
  rw [resolve_eq h]
  refine ⟨exists_ofSelections_eq_ok_iff, fun s hs => (ofSelections_eq_ok_iff.1 hs).2.2.2, ?_,
    fun e => ofSelections_eq_error_iff⟩
  intro w' h' hperm hcluster hselected s
  rw [resolve_eq h', hcluster, hselected]
  exact ⟨ofSelections_eq_ok_of_perm hperm, ofSelections_eq_ok_of_perm hperm.symm⟩

/-- A world with two states of one priority and a declaration without a name.  The next request for
the declarations is answered, and the one after it is not. -/
def tied (definitions : List State) : World where
  cluster :=
    { definitions, clusterStates := ["bau"]
      namespaceStates := Table.ofList [("mill", ["bau", "peak"]), ("shop", ["peak"])] }
  faults := [⟨.get, .other, "timeout", 1, 0⟩, ⟨.definitions, .other, "timeout", 1, 1⟩]

/-- On equal priority numbers the state of the namespace holds, in either order of the declarations;
and where a namespace selects two states none holds. -/
theorem resolution_exact_tied :
    (tied [⟨"bau", 10⟩, ⟨"", 0⟩, ⟨"peak", 10⟩]).StatesAnswer ∧
      Prevails [⟨"bau", 10⟩, ⟨"", 0⟩, ⟨"peak", 10⟩] ["bau"] ["peak"] ⟨"peak", 10⟩ ∧
      (resolve (tied [⟨"peak", 10⟩, ⟨"", 0⟩, ⟨"bau", 10⟩]) "shop").1 = .ok ⟨"peak", 10⟩ ∧
      (resolve (tied [⟨"bau", 10⟩, ⟨"", 0⟩, ⟨"peak", 10⟩]) "mill").1 = .error (.tooMany .ns 2) := by
  have hanswer : (tied [⟨"bau", 10⟩, ⟨"", 0⟩, ⟨"peak", 10⟩]).StatesAnswer := by decide
  have hanswer' : (tied [⟨"peak", 10⟩, ⟨"", 0⟩, ⟨"bau", 10⟩]).StatesAnswer := by decide
  have hstates : (tied [⟨"bau", 10⟩, ⟨"", 0⟩, ⟨"peak", 10⟩]).cluster.statesOf "shop" =
      ["peak"] := by decide +kernel
  have hresolve : (resolve (tied [⟨"bau", 10⟩, ⟨"", 0⟩, ⟨"peak", 10⟩]) "shop").1 =
      .ok ⟨"peak", 10⟩ := by
    rw [resolve_eq hanswer, hstates]
    rfl
  obtain ⟨-, hprevails, horder, -⟩ := resolution_exact hanswer "shop"
  obtain ⟨-, -, -, herror⟩ := resolution_exact hanswer "mill"
  refine ⟨hanswer, hstates ▸ hprevails _ hresolve, ?_, (herror _).2 ?_⟩
  · exact (horder _ hanswer' (List.reverse_perm _).symm rfl rfl _).1 hresolve
  · exact .tooManyOfNamespace ⟨by decide, by decide⟩ (by decide) (by decide +kernel)

end NamespaceState

end ReplicaControl
