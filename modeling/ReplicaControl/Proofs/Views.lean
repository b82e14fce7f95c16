import ReplicaControl.Proofs.Locality
import ReplicaControl.Proofs.Scene

/-!
# Views of a scene

* `Scene.view` — what a scene shows of a namespace: its attempts, and for each key what the key
  shows of the world.  Waits that only time ends are taken to be over.
* `Scene.Steady` — the attempts belong to the namespace, each to a key of its own, and all that was
  done so far concerns the namespace; `Steady.next_turn`: turns of attempts keep it.
* `Steady.view_stay` — time and the attempts that wait for it do not change the view.
* `Steady.view_congr` — scenes with one view have one view again after an attempt that goes on at
  once took its turn in both.
-/

namespace ReplicaControl

namespace World

variable {p : Key → Prop} {w w' : World} {σ : Scope}

theorem WorkedOn.fits (h : w.WorkedOn p w') (hf : σ.Fits w) : σ.Fits w' := by
  obtain ⟨writes, hhistory⟩ := h.history
  obtain ⟨news, hevents, -⟩ := h.events
  refine ⟨Nat.le_trans hf.told ?_, Nat.le_trans hf.written ?_⟩
  · rw [hevents, List.length_append]
    exact Nat.le_add_right _ _
  · rw [hhistory, List.length_append]
    exact Nat.le_add_right _ _

/-- What is for the keys of other namespaces does not concern a namespace. -/
theorem WorkedOn.agreesOn (h : w.WorkedOn p w') {ns : String} (hp : ∀ key, p key → key.ns ≠ ns) :
    w.AgreesOn ns w' := by
  obtain ⟨inv, writes, hcluster⟩ := h.cluster
  refine ⟨⟨?_, ?_, ?_, fun id hid => h.workloads id fun hid' => hp _ hid' hid, ?_, ?_⟩,
    fun key hkey => h.entries key fun hkey' => hp _ hkey' hkey⟩
  all_goals rw [hcluster]
  rfl

/-- Of what is for other keys a scope shows the cluster only. -/
theorem WorkedOn.within_eq (h : w.WorkedOn p w') (hf : σ.Fits w)
    (hp : ∀ key, σ.has key = true → ¬ p key) :
    w'.within σ = { w.within σ with cluster := w'.cluster.within σ.ns σ.written } := by
  obtain ⟨news, hevents, hnews⟩ := h.events
  have hreg : w'.registry.only σ.has = w.registry.only σ.has := by
    refine Table.ext_get? fun key => ?_
    rw [Table.get?_only, Table.get?_only]
    split
    · exact h.entries key (hp key ‹_›)
    · rfl
  have hnone : news.filter (fun e => σ.has e.key) = [] :=
    List.filter_eq_nil_iff.2 fun e he hhas => hp e.key hhas (hnews e he)
  unfold within
  rw [hreg, h.faults, h.rules, hevents, List.drop_append_of_le_length hf.told, List.filter_append,
    hnone, List.append_nil]

end World

namespace Attempt

variable {s : Settings} {a b : Attempt} {w w' : World} {σ : Scope} {p : Key → Prop}

/-! ## Foreseen waits -/

theorem timeless_key (a : Attempt) : a.timeless.key = a.key := by
  unfold timeless
  split <;> rfl

theorem isOver_timeless (a : Attempt) : a.timeless.isOver = a.isOver := by
  unfold timeless
  split
  · rename_i hp
    simp [isOver, hp]
  · rfl

theorem isOver_of_isActive (h : a.isActive w = true) : a.isOver = false := by
  unfold isActive at h
  unfold isOver
  split at h <;> simp_all

/-- An attempt that goes on at once and leaves the turn to others has not started. -/
theorem starting_of_isActive (h : a.isActive w = true) (hr : a.isAtRest = true) :
    a.phase = .starting := by
  unfold isActive at h
  unfold isAtRest at hr
  split at h <;> simp_all

theorem starting_of_timeless (h : b.timeless = a.timeless) (hp : b.phase = .starting) :
    a.phase = .starting := by
  have hphase : a.timeless.phase = .starting := by
    rw [← h]
    simp only [timeless, hp]
  unfold timeless at hphase
  split at hphase
  · cases hphase
  · exact hphase

theorem foresee_fst_congr (h : a.stuck? w' = a.stuck? w) : (a.foresee w').1 = (a.foresee w).1 := by
  unfold foresee
  rw [h]
  split <;> rfl

theorem foresee_of_isOver (h : a.isOver = true) (w : World) : a.foresee w = (a, w) := by
  have hnone : a.stuck? w = none := by
    unfold isOver at h
    unfold stuck? wait?
    split at h <;> simp_all
  rw [foresee, hnone]

theorem foresee_of_isActive (h : a.isActive w = true) : a.foresee w = (a, w) := by
  have hnone : a.stuck? w = none := by
    unfold isActive at h
    split at h
    case h_3 => exact Option.isNone_iff_eq_none.1 h
    all_goals simp_all [stuck?, wait?]
  rw [foresee, hnone]

/-- An attempt whose wait is foreseen to end is over then. -/
theorem foresee_cases (a : Attempt) (w : World) :
    a.foresee w = (a, w) ∨ (a.foresee w).1.isOver = true := by
  unfold foresee
  split
  · exact .inr rfl
  · exact .inl rfl

theorem foresee_cluster (a : Attempt) (w : World) : (a.foresee w).2.cluster = w.cluster := by
  unfold foresee
  split
  · exact a.conclude_cluster w _
  · rfl

/-- What others do does not concern the end of a wait. -/
theorem foresee_within_eq (h : w.WorkedOn p w') (hf : σ.Fits w) (hk : σ.has b.key = true)
    (hp : ∀ key, σ.has key = true → ¬ p key) :
    (b.foresee w').2.within σ =
      { (b.foresee w).2.within σ with cluster := w'.cluster.within σ.ns σ.written } := by
  have hwithin := h.within_eq hf hp
  have hstuck : b.stuck? w' = b.stuck? w := stuck?_congr (h.workloads b.item.id (hp b.key hk))
  have hends : ∀ e, (b.conclude w' e).2.within σ =
      { (b.conclude w e).2.within σ with cluster := w'.cluster.within σ.ns σ.written } := by
    intro e
    have hset : ∀ (v : World) (c : Cluster),
        (b.conclude { v with cluster := c } e).2 = { (b.conclude v e).2 with cluster := c } := by
      intro v c
      cases e with
      | done o => cases o <;> rfl
      | failed e => rfl
    have h₁ := congrArg Prod.snd (conclude_within hk (h.fits hf) e)
    have h₂ := congrArg Prod.snd (conclude_within hk hf e)
    dsimp only at h₁ h₂
    rw [← h₁, ← h₂, hwithin, hset]
  unfold foresee
  rw [hstuck]
  cases b.stuck? w with
  | none => exact hwithin
  | some wait => exact hends _

/-- The end of a wait does not depend on the clock. -/
theorem foresee_clock (a : Attempt) (w : World) (now tickets : Nat) (σ : Scope) :
    (a.foresee { w with now, tickets }).1 = (a.foresee w).1 ∧
      (a.foresee { w with now, tickets }).2.within σ = (a.foresee w).2.within σ := by
  have hstuck : a.stuck? { w with now, tickets } = a.stuck? w := rfl
  unfold foresee
  rw [hstuck]
  cases a.stuck? w <;> exact ⟨rfl, rfl⟩

/-- A turn of an attempt that waits for time to pass ends the wait as foreseen, or lets it go on. -/
theorem foresee_step_of_stuck (hw : w.IsCalm) {wait : Wait} (h : a.stuck? w = some wait)
    (σ : Scope) :
    ((a.step s w).1.foresee (a.step s w).2).1 = (a.foresee w).1 ∧
      ((a.step s w).1.foresee (a.step s w).2).2.within σ = (a.foresee w).2.within σ ∧
      (a.step s w).2.cluster = w.cluster := by
  have hforesee : a.foresee w = a.timeOut w wait := by rw [foresee, h]
  rcases step_of_stuck (s := s) hw h with heq | ⟨phase, n, ticket, heq, hphase⟩
  · rw [heq, hforesee, foresee_of_isOver (a := (a.timeOut w wait).1) rfl]
    exact ⟨rfl, rfl, a.conclude_cluster w _⟩
  · have hstuck := stuck?_of_wait?_eq (n := n) h hphase
    rw [heq, hforesee]
    unfold foresee
    dsimp only
    rw [hstuck]
    exact ⟨rfl, rfl, rfl⟩

end Attempt

/-! ## Views -/

/-- What is seen of a namespace. -/
@[ext]
structure View (ns : String) where
  attempts : List Attempt
  /-- What each key shows of the world. -/
  worlds : { key : Key // key.ns = ns } → World

namespace Scene

variable {s : Settings} {w w' : World} {ns : String} {sc sc' : Scene}

/-- The world when the wait of the attempt for a key is over, if only time ends it. -/
def outlook (sc : Scene) (key : Key) : World :=
  match sc.attempts.find? (·.key == key) with
  | some a => (a.foresee sc.world).2
  | none => sc.world

/-- What a scene shows of a namespace, with what is new since a world. -/
def view (w : World) (ns : String) (sc : Scene) : View ns where
  attempts := sc.attempts.map fun a => (a.foresee sc.world).1.timeless
  worlds := fun key => (sc.outlook key).within (.ofKey w key)

/-- Since a world nothing was done but by attempts for the keys of a namespace. -/
structure Steady (w : World) (ns : String) (sc : Scene) : Prop where
  calm : w.IsCalm
  worked : w.WorkedOn (·.ns = ns) sc.world
  home : ∀ a ∈ sc.attempts, a.key.ns = ns
  distinct : (sc.attempts.map Attempt.key).Nodup
  settled : ∀ a ∈ sc.attempts, a.IsSettled sc.world

/-- The attempt for a key, after one of the attempts was replaced. -/
theorem find?_set {as : List Attempt} (hdistinct : (as.map Attempt.key).Nodup) {i : Nat}
    {a a' : Attempt} (ha : as[i]? = some a) (hkey : a'.key = a.key) (key : Key) :
    (as.set i a').find? (·.key == key) =
      if key = a.key then some a' else as.find? (·.key == key) := by
  obtain ⟨before, after, hsplit, -, hset⟩ := exists_around ha
  rw [hset, hsplit]
  by_cases heq : key = a.key
  · have hnone : before.find? (·.key == key) = none := by
      refine List.find?_eq_none.2 fun b hb hbk => ?_
      rw [hsplit, List.map_append, List.map_cons, List.nodup_append] at hdistinct
      exact hdistinct.2.2 _ (List.mem_map_of_mem hb) _ List.mem_cons_self
        ((beq_iff_eq.1 hbk).trans heq)
    rw [if_pos heq, List.find?_append, hnone]
    simp [hkey, heq]
  · have hne : (a.key == key) = false := beq_false_of_ne (Ne.symm heq)
    rw [if_neg heq]
    simp [List.find?_append, hkey, hne]

theorem set_self {as : List Attempt} {i : Nat} {a : Attempt} (ha : as[i]? = some a) :
    as.set i a = as := by
  obtain ⟨before, after, hsplit, -, hset⟩ := exists_around ha
  rw [hset, hsplit]

theorem view_cluster (key : { key : Key // key.ns = ns }) :
    ((sc.view w ns).worlds key).cluster =
      sc.world.cluster.within key.1.ns w.cluster.history.length := by
  have houtlook : (sc.outlook key.1).cluster = sc.world.cluster := by
    unfold outlook
    split
    · exact Attempt.foresee_cluster _ _
    · rfl
  exact congrArg (fun c => c.within key.1.ns w.cluster.history.length) houtlook

namespace Steady

variable (h : sc.Steady w ns)
include h

/-- Different attempts have different keys. -/
theorem key_ne {i j : Nat} {a b : Attempt} (ha : sc.attempts[i]? = some a)
    (hb : sc.attempts[j]? = some b) (hij : i ≠ j) : b.key ≠ a.key := by
  intro hk
  have hi := (List.getElem?_eq_some_iff.1 ha).1
  refine hij ((List.getElem?_inj (by rwa [List.length_map]) h.distinct).1 ?_)
  rw [List.getElem?_map, List.getElem?_map, ha, hb, Option.map_some, Option.map_some, hk]

theorem isCalm : sc.world.IsCalm := h.worked.isCalm h.calm

theorem fits (key : Key) : (Scope.ofKey w key).Fits sc.world :=
  h.worked.fits ⟨Nat.le_refl _, Nat.le_refl _⟩

theorem outlook_self {i : Nat} {a : Attempt} (ha : sc.attempts[i]? = some a) :
    sc.outlook a.key = (a.foresee sc.world).2 := by
  have hfind := find?_set h.distinct ha rfl a.key
  rw [set_self ha, if_pos rfl] at hfind
  rw [outlook, hfind]

/-- An attempt and its world in the place of one for the same key: the view has changed for the key
and in what is seen of the cluster. -/
theorem view_set {i : Nat} {a a' : Attempt} {v : World} (ha : sc.attempts[i]? = some a)
    (hkey : a'.key = a.key) (hworked : sc.world.WorkedOn (· = a.key) v) :
    view w ns { world := v, attempts := sc.attempts.set i a' } =
      { attempts := (sc.view w ns).attempts.set i (a'.foresee v).1.timeless
        worlds := fun key =>
          if key.1 = a.key then (a'.foresee v).2.within (.ofKey w key)
          else { (sc.view w ns).worlds key with
            cluster := v.cluster.within key.1.ns w.cluster.history.length } } := by
  refine View.ext ?_ (funext fun key => ?_)
  · show (sc.attempts.set i a').map _ = (sc.attempts.map _).set i _
    rw [List.map_set]
    refine List.ext_getElem? fun j => ?_
    rw [List.getElem?_set, List.getElem?_set, List.length_map, List.length_map]
    split
    · rfl
    · rename_i hne
      rw [List.getElem?_map, List.getElem?_map]
      cases hb : sc.attempts[j]? with
      | none => rfl
      | some b =>
        have hstuck : b.stuck? v = b.stuck? sc.world :=
          Attempt.stuck?_congr (hworked.workloads b.item.id (h.key_ne ha hb hne))
        simp only [Option.map_some, Attempt.foresee_fst_congr hstuck]
  · unfold view outlook
    dsimp only
    rw [find?_set h.distinct ha hkey]
    by_cases hk : key.1 = a.key
    · rw [if_pos hk, if_pos hk]
    · rw [if_neg hk, if_neg hk]
      have hother : ∀ other, (Scope.ofKey w key.1).has other = true → ¬ other = a.key := by
        intro other ho heq
        exact hk ((beq_iff_eq.1 ho).symm.trans heq)
      cases hb : sc.attempts.find? (·.key == key.1) with
      | none => exact hworked.within_eq (h.fits key.1) hother
      | some b =>
        have hbk : (Scope.ofKey w key.1).has b.key = true :=
          List.find?_some (p := fun a : Attempt => a.key == key.1) hb
        exact Attempt.foresee_within_eq hworked (h.fits key.1) hbk hother

/-! ## Turns -/

/-- Turns of attempts concern the namespace only. -/
theorem next_turn (s : Settings) (i : Nat) : (sc.next s (.attempt i)).Steady w ns := by
  rcases sc.next_attempt_cases s i with ⟨a, ha, -, hn⟩ | hn
  · have hworked := a.step_workedOn s h.isCalm
    have hkey := a.step_key s sc.world
    have hhome := h.home a (List.mem_of_getElem? ha)
    rw [hn]
    refine ⟨h.calm, h.worked.trans (hworked.mono fun key hk => hk ▸ hhome), ?_, ?_, ?_⟩
    · intro b hb
      rcases List.mem_or_eq_of_mem_set hb with hb | rfl
      · exact h.home b hb
      · exact hkey ▸ hhome
    · have hkeys : (sc.attempts.set i (a.step s sc.world).1).map Attempt.key =
          sc.attempts.map Attempt.key := by
        obtain ⟨before, after, hsplit, -, hset⟩ := exists_around ha
        rw [hset, hsplit, List.map_append, List.map_append, List.map_cons, List.map_cons, hkey]
      exact hkeys ▸ h.distinct
    · intro b hb
      obtain ⟨j, hj⟩ := List.getElem?_of_mem hb
      rw [List.getElem?_set] at hj
      split at hj
      · split at hj
        · obtain rfl := Option.some.inj hj
          exact Attempt.step_isSettled h.isCalm (h.settled a (List.mem_of_getElem? ha))
        · cases hj
      · rename_i hne
        exact (h.settled b (List.mem_of_getElem? hj)).congr
          (hworked.workloads b.item.id (h.key_ne ha hj hne))
  · rw [hn]
    exact h

/-- Time passes. -/
theorem withClock (now tickets : Nat) :
    Steady w ns { sc with world := { sc.world with now, tickets } } where
  calm := h.calm
  worked := h.worked.trans (.clock now tickets)
  home := h.home
  distinct := h.distinct
  settled := fun a ha => (h.settled a ha).congr rfl

omit h in
theorem view_withClock (now tickets : Nat) :
    view w ns { sc with world := { sc.world with now, tickets } } = sc.view w ns := by
  refine View.ext ?_ (funext fun key => ?_)
  · refine List.map_congr_left fun a _ => ?_
    rw [(a.foresee_clock sc.world now tickets (.ofKey w a.key)).1]
  · unfold view outlook
    dsimp only
    cases sc.attempts.find? (·.key == key.1) with
    | none => rfl
    | some a => exact (a.foresee_clock sc.world now tickets _).2

/-- The view does not change with a turn of an attempt that is over or waits for time to pass. -/
theorem view_stay {i : Nat} {a : Attempt} (ha : sc.attempts[i]? = some a)
    (hidle : a.isActive sc.world = false) :
    (sc.next s (.attempt i)).view w ns = sc.view w ns := by
  rcases sc.next_attempt_cases s i with ⟨b, hb, -, hn⟩ | hn
  · obtain rfl := Option.some.inj (hb.symm.trans ha)
    rw [hn]
    rcases h.settled b (List.mem_of_getElem? ha) with hover | hactive | hstuck
    · rw [Attempt.step_of_isOver s sc.world hover, set_self ha]
    · rw [hidle] at hactive
      cases hactive
    · obtain ⟨wait, hwait⟩ := Option.isSome_iff_exists.1 hstuck
      have hforesee := fun σ => Attempt.foresee_step_of_stuck (s := s) h.isCalm hwait σ
      rw [h.view_set ha (b.step_key s sc.world) (b.step_workedOn s h.isCalm)]
      refine View.ext ?_ (funext fun key => ?_)
      · dsimp only
        rw [(hforesee (.ofKey w b.key)).1]
        refine set_self ?_
        rw [view, List.getElem?_map, ha, Option.map_some]
      · dsimp only
        split
        · rename_i hk
          rw [(hforesee _).2.1, view]
          dsimp only
          rw [hk, h.outlook_self ha]
        · rw [(hforesee (.ofKey w b.key)).2.2, ← view_cluster]
  · rw [hn]

/-- The attempt of an active attempt's number in a scene with the same view is the same but for the
instants of its wait, goes on at once as well, and sees the same. -/
theorem exists_alike (h' : sc'.Steady w' ns) (hview : sc'.view w' ns = sc.view w ns) {i : Nat}
    {a : Attempt} (ha : sc.attempts[i]? = some a) (hactive : a.isActive sc.world = true) :
    ∃ b, sc'.attempts[i]? = some b ∧ b.isActive sc'.world = true ∧ b.timeless = a.timeless ∧
      sc'.world.within (.ofKey w' a.key) = sc.world.within (.ofKey w a.key) := by
  have hforesee := Attempt.foresee_of_isActive hactive
  have hi := congrArg (fun v : View ns => v.attempts[i]?) hview
  simp only [view, List.getElem?_map, ha, Option.map_some, hforesee] at hi
  obtain ⟨b, hb, htimeless⟩ := Option.map_eq_some_iff.1 hi
  have hover : (b.foresee sc'.world).1.isOver = false := by
    have hsame := congrArg Attempt.isOver htimeless
    rw [Attempt.isOver_timeless, Attempt.isOver_timeless] at hsame
    rw [hsame]
    exact Attempt.isOver_of_isActive hactive
  have hsame : b.foresee sc'.world = (b, sc'.world) :=
    (b.foresee_cases sc'.world).resolve_right (by rw [hover]; exact Bool.false_ne_true)
  rw [hsame] at htimeless hover
  have hbkey : b.key = a.key := by
    rw [← b.timeless_key, ← a.timeless_key]
    exact congrArg Attempt.key htimeless
  have hbactive : b.isActive sc'.world = true := by
    rcases h'.settled b (List.mem_of_getElem? hb) with ho | hb | hstuck
    · exact absurd (hover.symm.trans ho) Bool.false_ne_true
    · exact hb
    · obtain ⟨wait, hwait⟩ := Option.isSome_iff_exists.1 hstuck
      rw [Attempt.foresee, hwait] at hsame
      have hphase := congrArg (fun r => r.1.isOver) hsame
      exact absurd (hover.symm.trans hphase.symm) Bool.false_ne_true
  refine ⟨b, hb, hbactive, htimeless, ?_⟩
  have hworld := congrFun (congrArg View.worlds hview)
    ⟨a.key, h.home a (List.mem_of_getElem? ha)⟩
  have houtlook := h.outlook_self ha
  have houtlook' := h'.outlook_self hb
  rw [hforesee] at houtlook
  rw [hsame, hbkey] at houtlook'
  simp only [view, houtlook, houtlook'] at hworld
  exact hworld

/-- **Scenes with one view have one view again** after an attempt that goes on at once took its turn
in both. -/
theorem view_congr (h' : sc'.Steady w' ns) (hview : sc'.view w' ns = sc.view w ns) {i : Nat}
    {a : Attempt} (ha : sc.attempts[i]? = some a) (hactive : a.isActive sc.world = true)
    (hfree : sc.isFreeFor i) (hfree' : sc'.isFreeFor i) :
    (sc'.next s (.attempt i)).view w' ns = (sc.next s (.attempt i)).view w ns := by
  obtain ⟨b, hb, hbactive, htimeless, hworld⟩ := h.exists_alike h' hview ha hactive
  have hbkey : b.key = a.key := by
    rw [← b.timeless_key, ← a.timeless_key, htimeless]
  have hself : ∀ v : World, (Scope.ofKey v a.key).has a.key = true := fun v => beq_self_eq_true _
  have hself' : ∀ v : World, (Scope.ofKey v a.key).has b.key = true := fun v => hbkey ▸ hself v
  -- both steps are the one in the world that the key shows
  obtain ⟨hattempt, hafter⟩ := Attempt.step_within (s := s) (hself w) (h.fits a.key) h.isCalm rfl
    hactive
  obtain ⟨hattempt', hafter'⟩ := Attempt.step_within (s := s) (hself' w') (h'.fits a.key)
    h'.isCalm (congrArg Key.ns hbkey) hbactive
  rw [htimeless, hworld] at hattempt' hafter'
  have hstep := a.step_workedOn s h.isCalm
  have hstep' := b.step_workedOn s h'.isCalm
  -- and so are the ends of the waits that begin with it
  have hk := a.step_key s sc.world
  have hk' := b.step_key s sc'.world
  obtain ⟨hend, hendWorld⟩ := Attempt.foresee_within (a := (a.step s sc.world).1)
    (σ := .ofKey w a.key) (by rw [hk]; exact hself w) (hstep.fits (h.fits a.key))
    (congrArg Key.ns hk)
  obtain ⟨hend', hendWorld'⟩ := Attempt.foresee_within (a := (b.step s sc'.world).1)
    (σ := .ofKey w' a.key) (by rw [hk']; exact hself' w') (hstep'.fits (h'.fits a.key))
    (congrArg Key.ns (hk'.trans hbkey))
  rw [← hattempt, ← hafter] at hend hendWorld
  rw [← hattempt', ← hafter'] at hend' hendWorld'
  rw [next_attempt ha hfree, next_attempt hb hfree', h.view_set ha hk hstep,
    h'.view_set hb hk' hstep', hview]
  refine View.ext ?_ (funext fun key => ?_)
  · dsimp only
    rw [← hend, ← hend']
  · dsimp only
    rw [hbkey]
    split
    · rename_i hkey
      rw [hkey, ← hendWorld, ← hendWorld']
    · have hcluster := congrArg World.cluster (hafter'.symm.trans hafter)
      have hns : key.1.ns = a.key.ns := key.2.trans (h.home a (List.mem_of_getElem? ha)).symm
      rw [hns]
      exact congrArg (fun c => { (sc.view w ns).worlds key with cluster := c }) hcluster

end Steady

end Scene

end ReplicaControl
