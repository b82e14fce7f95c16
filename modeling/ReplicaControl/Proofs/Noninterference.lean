import Mathlib.Logic.Relation
import ReplicaControl.Proofs.Progress
import ReplicaControl.Proofs.Sample
import ReplicaControl.Proofs.Views

/-!
# Cycles do not interfere

A cycle for a namespace, and the attempts that it launches while nobody else does anything.

* `Scene.Reconciling` — the scenes from such a cycle on.  The attempts start in some order.  Those
  that have started go on in any order, and time passes whenever all of them wait.
* `proceeds_rightUnique` — the view of the namespace has one course only, which depends on nothing
  outside the view; `view_afterCycle`: where two worlds have the same for the namespace it starts
  with the same view.
* `Reconciling.matches` — so runs in two such worlds end alike.
* `Prompt.exists_isOver` — and they end, if time goes on and every attempt gets its turns.
* `agreesOn_of_order` — cycles for two namespaces commute.
-/

namespace ReplicaControl

namespace World

/-- What a key shows, from what its namespace shows. -/
theorem within_ofKey {key : Key} {ns : String} (h : key.ns = ns) (v w : World) :
    v.within (.ofKey w key) = { v.within (.ofNamespace w ns) with
      registry := (v.within (.ofNamespace w ns)).registry.only (· == key)
      events := (v.within (.ofNamespace w ns)).events.filter fun e => e.key == key } := by
  have himp : ∀ other : Key, (other == key) = true → (other.ns == ns) = true := by
    intro other ho
    rw [beq_iff_eq.1 ho]
    exact beq_iff_eq.2 h
  have hreg : (v.registry.only fun other => other.ns == ns).only (· == key) =
      v.registry.only (· == key) := by
    refine Table.ext_get? fun other => ?_
    rw [Table.get?_only, Table.get?_only, Table.get?_only]
    split
    · rw [if_pos (himp other ‹_›)]
    · rfl
  have hevents : ((v.events.drop w.events.length).filter fun e => e.key.ns == ns).filter
      (fun e => e.key == key) = (v.events.drop w.events.length).filter fun e => e.key == key := by
    rw [List.filter_filter]
    refine List.filter_congr fun e _ => ?_
    cases he : e.key == key with
    | false => rfl
    | true => rw [himp e.key he]; rfl
  unfold within Scope.ofKey Scope.ofNamespace
  dsimp only
  rw [hreg, hevents, h]

end World

namespace Scene

variable {s : Settings} {order : Nat → Nat} {w w' : World} {ns : String} {sc sc' : Scene}

/-! ## Attempts that are left to themselves -/

/-- Attempts take turns or time passes, and nothing else happens.  Of the attempts that have not
started yet, the first one in an order starts. -/
def InTurn (order : Nat → Nat) (sc : Scene) : Move → Prop
  | .trigger _ => False
  | .attempt i => ∀ a, sc.attempts[i]? = some a → a.phase = .starting →
      ∀ j b, sc.attempts[j]? = some b → b.phase = .starting → order i ≤ order j
  | .others w => ∃ now, w = { sc.world with now }

/-- The scenes of a cycle for a namespace and its attempts, which are left to themselves. -/
inductive Reconciling (s : Settings) (order : Nat → Nat) (w : World) (ns : String) : Scene → Prop
  | launched : Reconciling s order w ns (afterCycle s w ns)
  | next {sc : Scene} {m : Move} (h : Reconciling s order w ns sc) (hm : sc.InTurn order m) :
      Reconciling s order w ns (sc.next s m)

/-- All attempts are over. -/
def IsOver (sc : Scene) : Prop := ∀ a ∈ sc.attempts, a.isOver = true

instance (sc : Scene) : Decidable sc.IsOver := inferInstanceAs (Decidable (∀ a ∈ _, _))

theorem steady_afterCycle (s : Settings) (hw : w.IsCalm) (ns : String) :
    (afterCycle s w ns).Steady w ns := by
  have hplan := Cycle.ofNamespace_plan s w ns
  have heq : afterCycle s w ns = staged (Cycle.ofNamespace s w ns).2
      (Cycle.launchesOf (Cycle.ofNamespace s w ns).1) := rfl
  rw [heq]
  refine ⟨hw, Cycle.ofNamespace_workedOn s hw ns, fun a ha => ?_, ?_, fun a ha => ?_⟩
  · obtain ⟨l, hl, rfl⟩ := List.mem_map.1 ha
    obtain ⟨x, ⟨-, -, -, -, hns, -⟩, hid, -⟩ := hplan.launched hl
    exact (congrArg (fun id : WorkloadId => id.key.ns) hid).symm.trans hns
  · rw [staged, List.map_map]
    exact hplan.marks.nodup
  · obtain ⟨l, hl, rfl⟩ := List.mem_map.1 ha
    exact .inr (.inl rfl)

theorem Reconciling.steady (h : sc.Reconciling s order w ns) (hw : w.IsCalm) :
    sc.Steady w ns := by
  induction h with
  | launched => exact steady_afterCycle s hw ns
  | @next sc m _ hm ih =>
    cases m with
    | trigger t => exact hm.elim
    | attempt i => exact ih.next_turn s i
    | others v =>
      obtain ⟨now, rfl⟩ := hm
      simp only [Scene.next]
      split
      · exact ih.withClock _ _
      · exact ih

/-! ## The course of the view -/

/-- A view changes with the turn of an attempt that goes on at once. -/
def Proceeds (s : Settings) (order : Nat → Nat) (ns : String) (x y : View ns) : Prop :=
  ∃ w sc i a, Steady w ns sc ∧ sc.attempts[i]? = some a ∧ a.isActive sc.world = true ∧
    sc.isFreeFor i = true ∧ sc.InTurn order (.attempt i) ∧ sc.view w ns = x ∧
    (sc.next s (.attempt i)).view w ns = y

/-- The view stays in a turn, or proceeds. -/
theorem Reconciling.reaches (h : sc.Reconciling s order w ns) (hw : w.IsCalm) :
    Relation.ReflTransGen (Proceeds s order ns) ((afterCycle s w ns).view w ns)
      (sc.view w ns) := by
  induction h with
  | launched => exact .refl
  | @next sc m hsc hm ih =>
    have hsteady := hsc.steady hw
    cases m with
    | trigger t => exact hm.elim
    | others v =>
      obtain ⟨now, rfl⟩ := hm
      simp only [Scene.next]
      split
      · have hsame : view w ns { sc with world := sc.world.changedTo { sc.world with now } } =
            sc.view w ns := Steady.view_withClock _ _
        rw [hsame]
        exact ih
      · exact ih
    | attempt i =>
      by_cases hturn : ∃ a, sc.attempts[i]? = some a ∧ a.isActive sc.world = true ∧
          sc.isFreeFor i = true
      · obtain ⟨a, ha, hactive, hfree⟩ := hturn
        exact ih.tail ⟨w, sc, i, a, hsteady, ha, hactive, hfree, hm, rfl, rfl⟩
      · rcases sc.next_attempt_cases s i with ⟨a, ha, hfree, -⟩ | hn
        · rw [hsteady.view_stay ha]
          · exact ih
          · exact Bool.eq_false_iff.2 fun hactive => hturn ⟨a, ha, hactive, hfree⟩
        · rw [hn]
          exact ih

/-- **A view proceeds in one way only.** -/
theorem proceeds_rightUnique (horder : order.Injective) :
    Relator.RightUnique (Proceeds s order ns) := by
  rintro x y z ⟨w, sc, i, a, h, ha, hactive, hfree, hturn, rfl, rfl⟩
    ⟨w', sc', j, b, h', hb, hactive', hfree', hturn', hview, rfl⟩
  obtain ⟨a', ha', haactive, hatimeless, -⟩ := h.exists_alike h' hview ha hactive
  obtain ⟨b', hb', hbactive, hbtimeless, -⟩ := h'.exists_alike h hview.symm hb hactive'
  have hij : i = j := by
    by_contra hne
    -- each of the two has not started yet where the other one has its turn
    have hrest : b'.isAtRest := List.all_eq_true.1 hfree b'
      (List.mem_eraseIdx_iff_getElem?.2 ⟨j, Ne.symm hne, hb'⟩)
    have hrest' : a'.isAtRest := List.all_eq_true.1 hfree' a'
      (List.mem_eraseIdx_iff_getElem?.2 ⟨i, hne, ha'⟩)
    have hstart := Attempt.starting_of_isActive hbactive hrest
    have hstart' := Attempt.starting_of_isActive haactive hrest'
    have hle := hturn a ha (Attempt.starting_of_timeless hatimeless hstart') j b' hb' hstart
    have hle' := hturn' b hb (Attempt.starting_of_timeless hbtimeless hstart) i a' ha' hstart'
    exact hne (horder (Nat.le_antisymm hle hle'))
  subst hij
  exact (h.view_congr h' hview ha hactive hfree hfree').symm

/-- When all attempts are over the view does not proceed. -/
theorem IsOver.not_proceeds (hover : sc.IsOver) (h : sc.Steady w ns) (y : View ns) :
    ¬ Proceeds s order ns (sc.view w ns) y := by
  rintro ⟨w', sc', i, a, h', ha, hactive, -, -, hview, -⟩
  obtain ⟨b, hb, hbactive, -⟩ := h'.exists_alike h hview.symm ha hactive
  have hrunning := Attempt.isOver_of_isActive hbactive
  rw [hover b (List.mem_of_getElem? hb)] at hrunning
  cases hrunning

/-! ## Where a view starts and ends -/

/-- The view of a scene without waits. -/
theorem view_of_plain (h : ∀ a ∈ sc.attempts, a.foresee sc.world = (a, sc.world) ∧ a.timeless = a) :
    sc.view w ns = ⟨sc.attempts, fun key => sc.world.within (.ofKey w key)⟩ := by
  refine View.ext ?_ (funext fun key => ?_)
  · refine (List.map_congr_left fun a ha => ?_).trans (List.map_id _)
    rw [(h a ha).1]
    exact (h a ha).2
  · unfold view outlook
    dsimp only
    cases hfind : sc.attempts.find? (·.key == key.1) with
    | none => rfl
    | some a =>
      dsimp only
      rw [(h a (List.mem_of_find?_eq_some hfind)).1]

theorem view_launched (s : Settings) (w : World) (ns : String) :
    (afterCycle s w ns).view w ns = ⟨(afterCycle s w ns).attempts,
      fun key => (Cycle.ofNamespace s w ns).2.within (.ofKey w key)⟩ := by
  refine view_of_plain fun a ha => ?_
  have hp := starting_afterCycle ha
  have hactive : a.isActive (afterCycle s w ns).world = true := by simp [Attempt.isActive, hp]
  exact ⟨Attempt.foresee_of_isActive hactive, by simp only [Attempt.timeless, hp]⟩

theorem IsOver.view_eq (hover : sc.IsOver) :
    sc.view w ns = ⟨sc.attempts, fun key => sc.world.within (.ofKey w key)⟩ := by
  refine view_of_plain fun a ha => ⟨Attempt.foresee_of_isOver (hover a ha) _, ?_⟩
  have ho := hover a ha
  unfold Attempt.isOver at ho
  unfold Attempt.timeless
  split at ho <;> simp_all

/-- **Cycles for a namespace in worlds that have the same for it report the same, and show the same
then.** -/
theorem view_afterCycle (hw : w.IsCalm) (hw' : w'.IsCalm) (h : w.AgreesOn ns w') :
    (Cycle.ofNamespace s w' ns).1 = (Cycle.ofNamespace s w ns).1 ∧
      (afterCycle s w' ns).view w' ns = (afterCycle s w ns).view w ns := by
  have hlocal : ∀ v : World, v.IsCalm → Cycle.ofNamespace s (v.within (.ofNamespace v ns)) ns =
      ((Cycle.ofNamespace s v ns).1,
        (Cycle.ofNamespace s v ns).2.within (.ofNamespace v ns)) := fun v hv =>
    Cycle.ofNamespace_within (σ := .ofNamespace v ns) s hv (fun key hk => beq_iff_eq.2 hk)
      ⟨Nat.le_refl _, Nat.le_refl _⟩
  have heq := hlocal w' hw'
  rw [h.within_eq hw hw', hlocal w hw] at heq
  obtain ⟨hreport, hworld⟩ := Prod.ext_iff.1 heq
  have hreport : (Cycle.ofNamespace s w' ns).1 = (Cycle.ofNamespace s w ns).1 := hreport.symm
  refine ⟨hreport, ?_⟩
  rw [view_launched, view_launched]
  refine View.ext ?_ (funext fun key => ?_)
  · show (Cycle.launchesOf (Cycle.ofNamespace s w' ns).1).map _ =
      (Cycle.launchesOf (Cycle.ofNamespace s w ns).1).map _
    rw [hreport]
  · dsimp only at hworld ⊢
    rw [World.within_ofKey key.2, World.within_ofKey key.2, hworld]

/-- Two scenes show the same of a namespace, each with what is new since a world: the same attempts,
the same workloads and entries, the same events about each key and the same counts written to the
workloads. -/
structure Matches (ns : String) (w w' : World) (sc sc' : Scene) : Prop where
  attempts : sc'.attempts = sc.attempts
  world : sc.world.AgreesOn ns sc'.world
  events : ∃ news news', sc.world.events = w.events ++ news ∧
    sc'.world.events = w'.events ++ news' ∧
    ∀ key, key.ns = ns → news'.filter (·.key == key) = news.filter (·.key == key)
  writes : ∃ writes writes', sc.world.cluster.history = w.cluster.history ++ writes ∧
    sc'.world.cluster.history = w'.cluster.history ++ writes' ∧
    writes'.filter (·.1.key.ns == ns) = writes.filter (·.1.key.ns == ns)

/-- Scenes with one view in which all attempts are over show the same. -/
theorem IsOver.matches (hover : sc.IsOver) (hover' : sc'.IsOver) (h : sc.Steady w ns)
    (h' : sc'.Steady w' ns) (hview : sc'.view w' ns = sc.view w ns) :
    Matches ns w w' sc sc' := by
  rw [hover.view_eq, hover'.view_eq] at hview
  obtain ⟨hattempts, hworlds⟩ := View.ext_iff.1 hview
  have hwithin : ∀ key : Key, key.ns = ns →
      sc'.world.within (.ofKey w' key) = sc.world.within (.ofKey w key) := fun key hkey =>
    congrFun hworlds ⟨key, hkey⟩
  have hcluster : sc'.world.cluster.within ns w'.cluster.history.length =
      sc.world.cluster.within ns w.cluster.history.length :=
    congrArg World.cluster (hwithin ⟨ns, ""⟩ rfl)
  obtain ⟨writes, hlog⟩ := h.worked.history
  obtain ⟨writes', hlog'⟩ := h'.worked.history
  obtain ⟨news, hnews, -⟩ := h.worked.events
  obtain ⟨news', hnews', -⟩ := h'.worked.events
  refine ⟨hattempts, ⟨Cluster.agreesOn_of_within hcluster, fun key hkey => ?_⟩,
    ⟨news, news', hnews, hnews', fun key hkey => ?_⟩, ⟨writes, writes', hlog, hlog', ?_⟩⟩
  · exact World.entry_of_within_ofKey (hwithin key hkey)
  · have hevents := congrArg World.events (hwithin key hkey)
    simp only [World.within, Scope.ofKey, hnews, hnews', List.drop_left] at hevents
    exact hevents
  · have hhistory := congrArg Cluster.history hcluster
    simp only [Cluster.within, hlog, hlog', List.drop_left] at hhistory
    exact hhistory

/-- **Two runs for a namespace in worlds that have the same for it end alike.** -/
theorem Reconciling.matches (horder : order.Injective) (hw : w.IsCalm) (hw' : w'.IsCalm)
    (hagree : w.AgreesOn ns w') (h : sc.Reconciling s order w ns)
    (h' : sc'.Reconciling s order w' ns) (hover : sc.IsOver) (hover' : sc'.IsOver) :
    Matches ns w w' sc sc' := by
  have hreach := h.reaches hw
  have hreach' := h'.reaches hw'
  rw [(view_afterCycle hw hw' hagree).2] at hreach'
  have hsteady := h.steady hw
  have hsteady' := h'.steady hw'
  refine hover.matches hover' hsteady hsteady' ?_
  -- both views are the end of the same course
  have hunique : Relator.RightUnique (Proceeds s order ns) := proceeds_rightUnique horder
  rcases Relation.ReflTransGen.total_of_right_unique hunique hreach hreach' with hle | hle
  · rcases hle.cases_head with heq | ⟨y, hy, -⟩
    · exact heq.symm
    · exact absurd hy (hover.not_proceeds hsteady y)
  · rcases hle.cases_head with heq | ⟨y, hy, -⟩
    · exact heq
    · exact absurd hy (hover'.not_proceeds hsteady' y)

/-! ## The end of the attempts -/

/-- An attempt of a cycle that is not over yet is on its way to the target that the cycle left in
force for it. -/
theorem Reconciling.chases (hw : w.IsCalm) (h : sc.Reconciling s order w ns) {i : Nat}
    {a₀ a : Attempt} (h₀ : (afterCycle s w ns).attempts[i]? = some a₀)
    (ha : sc.attempts[i]? = some a) (ho : a.isOver = false) :
    a.Chases (a₀.desired (afterCycle s w ns).world.registry) sc.world := by
  induction h generalizing a with
  | launched =>
    obtain rfl := Option.some.inj (h₀.symm.trans ha)
    have hmem : a₀ ∈ (Cycle.launchesOf (Cycle.ofNamespace s w ns).1).map fun l : Launch =>
        Attempt.launch l.1 l.2 := List.mem_of_getElem? ha
    obtain ⟨l, hl, rfl⟩ := List.mem_map.1 hmem
    obtain ⟨x, ⟨hget, -⟩, hid, hspec⟩ := (Cycle.ofNamespace_plan s w ns).launched hl
    obtain ⟨faults, registry, events, hbooked⟩ := Cycle.ofNamespace_booked s w ns
    refine ⟨rfl, fun y hy => ?_, trivial⟩
    have hy : (Cycle.ofNamespace s w ns).2.cluster.inventory.get? l.1.id = some y := hy
    rw [hbooked, ← hid] at hy
    obtain rfl := Option.some.inj (hget.symm.trans hy)
    exact hspec
  | @next sc m hsc hm ih =>
    have hsteady := hsc.steady hw
    cases m with
    | trigger t => exact hm.elim
    | others v =>
      obtain ⟨now, rfl⟩ := hm
      revert ha
      simp only [Scene.next]
      split
      · exact fun ha => (ih ha ho).of_spares ⟨rfl, fun _ x _ hx => ⟨x, hx, rfl⟩⟩
      · exact fun ha => ih ha ho
    | attempt j =>
      rcases sc.next_attempt_cases s j with ⟨b, hb, -, hn⟩ | hn
      · rw [hn] at ha ⊢
        rw [List.getElem?_set] at ha
        split at ha
        · -- the attempt itself takes the turn
          rename_i hij
          subst hij
          split at ha
          · obtain rfl := Option.some.inj ha
            have hrunning : b.isOver = false := Bool.eq_false_iff.2 fun hover => by
              rw [Attempt.step_of_isOver s _ hover, hover] at ho
              cases ho
            refine (Attempt.step_chases (ih hb hrunning) hsteady.isCalm.rules).resolve_left ?_
            rw [ho]
            exact Bool.false_ne_true
          · cases ha
        · rename_i hij
          exact (ih ha ho).of_spares
            (b.step_spares s hsteady.isCalm.rules (hsteady.key_ne hb ha hij))
      · rw [hn] at ha ⊢
        exact ih ha ho

/-- No attempt comes or goes. -/
theorem Reconciling.length (h : sc.Reconciling s order w ns) :
    sc.attempts.length = (afterCycle s w ns).attempts.length := by
  induction h with
  | launched => rfl
  | @next sc m _ hm ih =>
    rw [← ih]
    cases m with
    | trigger t => exact hm.elim
    | attempt i =>
      rcases sc.next_attempt_cases s i with ⟨a, -, -, hn⟩ | hn
      · rw [hn]
        exact List.length_set
      · rw [hn]
    | others v =>
      simp only [Scene.next]
      split <;> rfl

/-- After a cycle attempts take turns and time goes on, and every attempt gets one turn after the
other.  Time can go on while an attempt sleeps between two polls, also if the sleep is of no
length. -/
structure Prompt (s : Settings) (order : Nat → Nat) (w : World) (ns : String)
    (turns : Nat → Move) : Prop where
  inTurn : ∀ n, ((afterCycle s w ns).after s turns n).InTurn order (turns n)
  time : ∀ t, ∃ n, t ≤ ((afterCycle s w ns).after s turns n).world.now
  turn : ∀ i < (afterCycle s w ns).attempts.length, ∀ n,
    ∃ m, n ≤ m ∧ turns m = .attempt i ∧ ((afterCycle s w ns).after s turns m).isFreeFor i

namespace Prompt

variable {turns : Nat → Move} (h : Prompt s order w ns turns)
include h

theorem reconciling (n : Nat) : ((afterCycle s w ns).after s turns n).Reconciling s order w ns := by
  induction n with
  | zero => exact .launched
  | succ n ih => exact ih.next (h.inTurn n)

/-- **The attempts of a cycle are all over at some time.** -/
theorem exists_isOver (hw : w.IsCalm) : ∃ n, ((afterCycle s w ns).after s turns n).IsOver := by
  have hover : ∃ n, ∀ i ∈ List.range (afterCycle s w ns).attempts.length, ∃ a,
      ((afterCycle s w ns).after s turns n).attempts[i]? = some a ∧ a.isOver = true := by
    refine exists_all_over fun i hi => ?_
    have hi := List.mem_range.1 hi
    have hstart := List.getElem?_eq_getElem hi
    exact exists_over h.time (h.turn i hi)
      (fun n a ha ho => (h.reconciling n).chases hw hstart ha ho) hstart
  obtain ⟨n, hn⟩ := hover
  refine ⟨n, fun a ha => ?_⟩
  obtain ⟨i, hi⟩ := List.getElem?_of_mem ha
  have hlt := (List.getElem?_eq_some_iff.1 hi).1
  rw [(h.reconciling n).length] at hlt
  obtain ⟨b, hb, hover⟩ := hn i (List.mem_range.2 hlt)
  obtain rfl := Option.some.inj (hb.symm.trans hi)
  exact hover

end Prompt

/-! ## Cycles of two namespaces -/

/-- What is done for a namespace leaves the others alone. -/
theorem Reconciling.agreesOn_of_ne (hw : w.IsCalm) (h : sc.Reconciling s order w ns)
    {other : String} (hne : other ≠ ns) : w.AgreesOn other sc.world :=
  (h.steady hw).worked.agreesOn fun _ hkey hother => hne (hother.symm.trans hkey)

/-- **Cycles of two namespaces commute**: whichever goes first, in the end all namespaces have the
same. -/
theorem agreesOn_of_order {other : String} (hne : other ≠ ns) {order' : Nat → Nat}
    (horder : order.Injective) (horder' : order'.Injective) (hw : w.IsCalm)
    {first second first' second' : Scene}
    (hfirst : first.Reconciling s order w ns) (hover : first.IsOver)
    (hsecond : second.Reconciling s order' first.world other) (hover₂ : second.IsOver)
    (hfirst' : first'.Reconciling s order' w other) (hover' : first'.IsOver)
    (hsecond' : second'.Reconciling s order first'.world ns) (hover₂' : second'.IsOver)
    (third : String) : second.world.AgreesOn third second'.world := by
  have hcalm := (hfirst.steady hw).isCalm
  have hcalm' := (hfirst'.steady hw).isCalm
  by_cases hns : third = ns
  · subst hns
    have hmatches := hfirst.matches horder hw hcalm' (hfirst'.agreesOn_of_ne hw (Ne.symm hne))
      hsecond' hover hover₂'
    exact (hsecond.agreesOn_of_ne hcalm (Ne.symm hne)).symm.trans hmatches.world
  by_cases hother : third = other
  · subst hother
    have hmatches := hfirst'.matches horder' hw hcalm (hfirst.agreesOn_of_ne hw hne) hsecond hover'
      hover₂
    exact hmatches.world.symm.trans (hsecond'.agreesOn_of_ne hcalm' hne)
  · have hsame := (hfirst.agreesOn_of_ne hw hns).trans (hsecond.agreesOn_of_ne hcalm hother)
    have hsame' := (hfirst'.agreesOn_of_ne hw hother).trans (hsecond'.agreesOn_of_ne hcalm' hns)
    exact hsame.symm.trans hsame'

/-- Worlds that have the same for all namespaces have the same workloads and the same registry. -/
theorem eq_of_agreesOn (h : ∀ ns, w.AgreesOn ns w') :
    w'.cluster.inventory = w.cluster.inventory ∧ w'.registry = w.registry :=
  ⟨Inventory.ext_get? fun id => (h id.key.ns).cluster.workloads id rfl,
    Table.ext_get? fun key => (h key.ns).entries key rfl⟩

end Scene

end ReplicaControl
