import Banking.Relational.Deadlock
import Banking.Relational.Progress
import Mathlib.Algebra.BigOperators.Group.Finset.Basic
import Mathlib.Data.Set.Finite.Basic
import Mathlib.Logic.Hydra
import Mathlib.Order.WellFounded

/-!
# Termination

Library `Relational`. A program is a well-founded tree, so a process takes finitely many statements
however many alternatives each of them has. What all processes have still to do is a finite multiset
of programs, and a statement replaces one of them by a part of it: without new calls the processes
stop under every schedule. Where nobody waits in a circle they do not stop before they have ended.
-/

namespace Relational

open scoped BigOperators

variable {D Lock Supply Call Reply α : Type}

/-! ### What is left to do -/

/-- A statement or a commit leads from the second program to the first. -/
inductive Tx.Continues : Tx D Lock Supply α → Tx D Lock Supply α → Prop
  | stmt {locks write next} (env : Env Supply) (view : D) :
      Continues (next env view) (.stmt locks write next)
  | commit {next} : Continues next (.commit next)

/-- Programs end. -/
theorem Tx.wellFounded_continues :
    WellFounded (Tx.Continues : Tx D Lock Supply α → Tx D Lock Supply α → Prop) := by
  refine ⟨fun program ↦ ?_⟩
  induction program with
  | pure a => exact ⟨_, fun _ h ↦ by cases h⟩
  | throw => exact ⟨_, fun _ h ↦ by cases h⟩
  | stmt locks write next ih =>
    refine ⟨_, fun _ h ↦ ?_⟩
    cases h with
    | stmt env view => exact ih env view
  | commit next ih =>
    refine ⟨_, fun _ h ↦ ?_⟩
    cases h with
    | commit => exact ih

/-- What a process has still to do. -/
def remaining : Option (Session D Lock Supply Call Reply) → Multiset (Tx D Lock Supply Reply)
  | some ⟨_, _, .running program _⟩ => {program}
  | _ => 0

/-- What the processes below `n` have still to do. -/
def State.work (s : State D Lock Supply Call Reply) (n : Nat) :
    Multiset (Tx D Lock Supply Reply) :=
  ∑ i ∈ Finset.range n, remaining (s.session i)

variable {s s' : State D Lock Supply Call Reply} {n : Nat}

/-- One process below `n` goes on with a part of its program, or ends. -/
private theorem work_replace {i : Nat} (hi : i < n) {call : Call} {born : D}
    {program : Tx D Lock Supply Reply} {pending : D → D}
    (hrunning : s.session i = some ⟨call, born, .running program pending⟩)
    {x : Session D Lock Supply Call Reply}
    (hsession : s'.session = fun j ↦ if j = i then some x else s.session j)
    (hx : ∀ next ∈ remaining (some x), Tx.Continues next program) :
    Relation.CutExpand Tx.Continues (s'.work n) (s.work n) := by
  refine ⟨remaining (some x), program, hx, ?_⟩
  have hmem : i ∈ Finset.range n := Finset.mem_range.mpr hi
  have hothers : ∑ j ∈ (Finset.range n).erase i, remaining (s'.session j) =
      ∑ j ∈ (Finset.range n).erase i, remaining (s.session j) := by
    refine Finset.sum_congr rfl fun j hj ↦ ?_
    rw [hsession]
    dsimp only
    rw [if_neg (Finset.ne_of_mem_erase hj)]
  have hafter : remaining (s'.session i) = remaining (some x) := by
    rw [hsession]
    dsimp only
    rw [if_pos rfl]
  have hbefore : remaining (s.session i) = {program} := by
    rw [hrunning]
    rfl
  simp only [State.work]
  rw [← Finset.add_sum_erase _ _ hmem, ← Finset.add_sum_erase _ _ hmem, hothers, hafter, hbefore]
  rw [add_comm, add_comm (remaining (some x)), ← add_assoc]

variable [DecidableEq Lock] {begins : Call → D → Option (Tx D Lock Supply Reply)}

/-- A step that starts nothing lets time pass, or leaves less to do. -/
theorem work_step {a : Action Supply Call} (ha : step begins s a = some s')
    (hstart : ∀ i call, a ≠ .start i call) (hn : ∀ j, n ≤ j → s.session j = none) :
    (∀ j, n ≤ j → s'.session j = none) ∧
      ((∃ now, a = .tick now) ∧ s'.work n = s.work n ∨
        Relation.CutExpand Tx.Continues (s'.work n) (s.work n)) := by
  have hlt : ∀ {i x}, s.session i = some x → i < n := by
    intro i x hi
    by_contra hle
    rw [hn i (by omega)] at hi
    cases hi
  have hsame : ∀ {i x}, s.session i ≠ none →
      s'.session = (fun j ↦ if j = i then some x else s.session j) →
        ∀ j, n ≤ j → s'.session j = none := by
    intro i x hi hsession j hj
    rw [hsession]
    dsimp only
    rw [if_neg]
    · exact hn j hj
    · rintro rfl
      exact hi (hn j hj)
  cases step_kind ha with
  | start free hb => exact absurd rfl (hstart _ _)
  | stmt hi free =>
    refine ⟨hsame (by simp [hi]) rfl, .inr (work_replace (hlt hi) hi rfl fun next hnext ↦ ?_)⟩
    obtain rfl := Multiset.mem_singleton.mp hnext
    exact .stmt _ _
  | commit hi =>
    refine ⟨hsame (by simp [hi]) rfl, .inr (work_replace (hlt hi) hi rfl fun next hnext ↦ ?_)⟩
    obtain rfl := Multiset.mem_singleton.mp hnext
    exact .commit
  | done hi ends =>
    exact ⟨hsame (by simp [hi]) rfl, .inr (work_replace (hlt hi) hi rfl fun next hnext ↦
      absurd hnext (Multiset.notMem_zero next))⟩
  | fail hi =>
    exact ⟨hsame (by simp [hi]) rfl, .inr (work_replace (hlt hi) hi rfl fun next hnext ↦
      absurd hnext (Multiset.notMem_zero next))⟩
  | tick ht => exact ⟨hn, .inl ⟨⟨_, rfl⟩, rfl⟩⟩

/-- Without new calls, nothing but the passing of time goes on forever. -/
theorem eventually_ticks {states : Nat → State D Lock Supply Call Reply}
    {actions : Nat → Action Supply Call}
    (hsteps : ∀ k, step begins (states k) (actions k) = some (states (k + 1)))
    (hstarts : ∀ k i call, actions k ≠ .start i call)
    (hn : ∀ j, n ≤ j → (states 0).session j = none) :
    ∃ k, ∀ j, k ≤ j → ∃ now, actions j = .tick now := by
  have hbound : ∀ k j, n ≤ j → (states k).session j = none := by
    intro k
    induction k with
    | zero => exact hn
    | succ k ih => exact (work_step (hsteps k) (hstarts k) ih).1
  have hless : ∀ k j, k ≤ j → Relation.ReflTransGen (Relation.CutExpand Tx.Continues)
      ((states j).work n) ((states k).work n) := by
    intro k j hkj
    induction hkj with
    | refl => exact .refl
    | @step j hkj ih =>
      rcases (work_step (hsteps j) (hstarts j) (hbound j)).2 with ⟨-, hsame⟩ | hcut
      · exact hsame ▸ ih
      · exact .head hcut ih
  -- by induction on what is left to do at `k`
  have key : ∀ work k, (states k).work n = work →
      ∃ k', ∀ j, k' ≤ j → ∃ now, actions j = .tick now := by
    intro work
    induction work using (Tx.wellFounded_continues.cutExpand).transGen.induction with
    | _ work ih =>
      rintro k rfl
      by_cases hticks : ∀ j, k ≤ j → ∃ now, actions j = .tick now
      · exact ⟨k, hticks⟩
      · obtain ⟨j, hj⟩ := not_forall.mp hticks
        obtain ⟨hkj, hwork⟩ := Classical.not_imp.mp hj
        rcases (work_step (hsteps j) (hstarts j) (hbound j)).2 with ⟨htick, -⟩ | hcut
        · exact absurd htick hwork
        · exact ih _ (Relation.TransGen.head' hcut (hless k j hkj)) (j + 1) rfl
  exact key _ 0 rfl

/-! ### Who can go on -/

omit [DecidableEq Lock] in
/-- The first lock that another process owns. -/
private theorem exists_blocked {i : Nat} {locks : List Lock}
    (h : ¬ ∀ l ∈ locks, s.owner l = none ∨ s.owner l = some i) :
    ∃ held l rest, locks = held ++ l :: rest ∧
      (∀ l' ∈ held, s.owner l' = none ∨ s.owner l' = some i) ∧
      ∃ k, s.owner l = some k ∧ k ≠ i := by
  induction locks with
  | nil => exact absurd (fun l hl ↦ absurd hl List.not_mem_nil) h
  | cons l locks ih =>
    by_cases hl : s.owner l = none ∨ s.owner l = some i
    · obtain ⟨held, l', rest, rfl, hheld, hk⟩ :=
        ih fun hrest ↦ h (List.forall_mem_cons.mpr ⟨hl, hrest⟩)
      exact ⟨l :: held, l', rest, rfl, List.forall_mem_cons.mpr ⟨hl, hheld⟩, hk⟩
    · obtain ⟨hsome, hother⟩ := not_or.mp hl
      obtain ⟨k, hk⟩ := Option.ne_none_iff_exists'.mp hsome
      refine ⟨[], l, locks, rfl, fun l' hl' ↦ absurd hl' List.not_mem_nil, k, hk, ?_⟩
      rintro rfl
      exact hother hk

/-- A running process that cannot take its next statement waits at a lock of another process. -/
private theorem waits_of_blocked {i : Nat} (hi : s.isRunning i) {supply : Supply}
    (hstep : step begins s (.exec i supply) = none) :
    ∃ held l k, WaitsAt s i held l ∧ s.owner l = some k ∧ k ≠ i := by
  obtain ⟨call, born, program, pending, hi⟩ := hi
  simp only [step, hi] at hstep
  cases program with
  | pure r => cases hstep
  | throw => cases hstep
  | commit next => cases hstep
  | stmt locks write next =>
    simp only [State.advance] at hstep
    split at hstep
    · cases hstep
    · next hgranted =>
      have hblocked : ¬ ∀ l ∈ locks ⟨s.clock, supply⟩ (pending s.db),
          s.owner l = none ∨ s.owner l = some i :=
        fun hfree ↦ hgranted (List.all_eq_true.mpr fun l hl ↦ by simpa using hfree l hl)
      obtain ⟨held, l, rest, hlocks, hheld, k, hk, hne⟩ := exists_blocked hblocked
      refine ⟨held, l, k, ⟨supply, rest, ?_, hheld⟩, hk, hne⟩
      simp only [State.needed, hi]
      exact hlocks

/-- Where processes wait for one another in no circle, one that runs can take its next statement,
whatever the environment chooses for it. -/
theorem exists_enabled (hacyclic : ∀ (w : Waits s) i, ¬ Relation.TransGen w.For i i)
    (howners : ∀ l i, s.owner l = some i → s.isRunning i) (hn : ∀ j, n ≤ j → s.session j = none)
    (supply : Nat → Supply) {i : Nat} (hi : s.isRunning i) :
    ∃ j, s.isRunning j ∧ (step begins s (.exec j (supply j))).isSome := by
  classical
  by_contra hstuck
  have hblocked : ∀ j, s.isRunning j → ∃ held l k, WaitsAt s j held l ∧ s.owner l = some k ∧
      k ≠ j := by
    intro j hj
    have hnone : step begins s (.exec j (supply j)) = none := by
      by_contra hsome
      exact hstuck ⟨j, hj, Option.isSome_iff_ne_none.mpr hsome⟩
    exact waits_of_blocked hj hnone
  choose held l next hwaits howner hne using hblocked
  -- everybody who runs waits, and for somebody who runs
  let w : Waits s := ⟨fun j ↦ if hj : s.isRunning j then some (held j hj, l j hj) else none, by
    intro j held' l' hpoint
    split at hpoint
    · next hj =>
      cases hpoint
      exact hwaits j hj
    · cases hpoint⟩
  have hfor : ∀ j hj, w.For j (next j hj) :=
    fun j hj ↦ ⟨(hne j hj).symm, held j hj, l j hj, dif_pos hj, .inl (howner j hj)⟩
  have : Finite {j // s.isRunning j} := by
    refine (Set.finite_lt_nat n).subset fun j hj ↦ ?_
    obtain ⟨call, born, program, pending, hj⟩ := hj
    by_contra hle
    rw [hn j (not_lt.mp hle)] at hj
    cases hj
  let Later (j k : {j // s.isRunning j}) : Prop := Relation.TransGen w.For k.1 j.1
  have : IsTrans _ Later := ⟨fun _ _ _ hjk hkl ↦ hkl.trans hjk⟩
  have : Std.Irrefl Later := ⟨fun j hj ↦ hacyclic w j.1 hj⟩
  obtain ⟨last, -, hlast⟩ := (Finite.wellFounded_of_trans_of_irrefl Later).has_min Set.univ
    ⟨⟨i, hi⟩, trivial⟩
  exact hlast ⟨next last.1 last.2, howners _ _ (howner last.1 last.2)⟩ trivial
    (.single (hfor last.1 last.2))

/-! ### How it ends -/

variable (begins) in
/-- The processes go on, and nothing else happens. -/
def Execs : State D Lock Supply Call Reply → State D Lock Supply Call Reply → Prop :=
  Relation.ReflTransGen fun s s' ↦ ∃ i supply, step begins s (.exec i supply) = some s'

/-- Where one process can always go on as long as one runs, all of them can end. -/
theorem exists_ended (hgo : ∀ t, Execs begins s t → ∀ i, t.isRunning i →
      ∃ j supply, (step begins t (.exec j supply)).isSome)
    (hn : ∀ j, n ≤ j → s.session j = none) :
    ∃ t, Execs begins s t ∧ ∀ i, ¬ t.isRunning i := by
  generalize hwork : s.work n = work
  induction work using (Tx.wellFounded_continues.cutExpand).induction generalizing s with
  | _ work ih =>
    by_cases hended : ∀ i, ¬ s.isRunning i
    · exact ⟨s, .refl, hended⟩
    · obtain ⟨i, hi⟩ := not_forall.mp hended
      obtain ⟨j, supply, hsome⟩ := hgo s .refl i (not_not.mp hi)
      obtain ⟨t, ht⟩ := Option.isSome_iff_exists.mp hsome
      obtain ⟨hbound, hless⟩ := work_step ht (fun _ _ he ↦ by cases he) hn
      have hcut := hless.resolve_left fun ⟨⟨_, he⟩, _⟩ ↦ by cases he
      obtain ⟨t', hexecs, hall⟩ := ih _ (hwork ▸ hcut)
        (fun t' hexecs ↦ hgo t' (.head ⟨j, supply, ht⟩ hexecs)) hbound rfl
      exact ⟨t', .head ⟨j, supply, ht⟩ hexecs, hall⟩

/-! ### Termination -/

variable (begins) in
/-- The running calls end. -/
structure Terminates (s : State D Lock Supply Call Reply) : Prop where
  /-- A run without new calls comes to a point where nothing but time goes on. -/
  stops : ∀ {states : Nat → State D Lock Supply Call Reply} {actions : Nat → Action Supply Call},
    states 0 = s → (∀ k, step begins (states k) (actions k) = some (states (k + 1))) →
    (∀ k i call, actions k ≠ .start i call) → ∃ k, ∀ j, k ≤ j → ∃ now, actions j = .tick now
  /-- As long as a call runs, one of them can take its next statement, whatever the environment
  chooses for it. -/
  advances : ∀ {i}, s.isRunning i → ∀ supply : Nat → Supply,
    ∃ j, s.isRunning j ∧ (step begins s (.exec j (supply j))).isSome
  /-- All calls can end without a new call, a failure or the passing of time. -/
  completes : ∃ s', Execs begins s s' ∧ ∀ i, ¬ s'.isRunning i

/-- A reachable state from which no processes ever wait for one another in a circle. -/
theorem terminates_of_acyclic [Nonempty Supply] {db₀ : D} {now : Int}
    (h : Runs begins (State.initial db₀ now) s)
    (hacyclic : ∀ t, Runs begins s t → ∀ (w : Waits t) i, ¬ Relation.TransGen w.For i i) :
    Terminates begins s := by
  obtain ⟨n, hn⟩ := exists_unstarted h
  have hadvances : ∀ t, Runs begins s t → ∀ i, t.isRunning i → ∀ supply : Nat → Supply,
      ∃ j, t.isRunning j ∧ (step begins t (.exec j (supply j))).isSome := by
    intro t ht i hi supply
    obtain ⟨m, hm⟩ := exists_unstarted (h.trans ht)
    exact exists_enabled (hacyclic t ht) (sound_trivial (h.trans ht)).owners hm supply hi
  refine ⟨fun hfirst hsteps hstarts ↦ ?_, fun hi ↦ hadvances s .refl _ hi, ?_⟩
  · exact eventually_ticks hsteps hstarts (hfirst ▸ hn)
  · refine exists_ended (fun t ht i hi ↦ ?_) hn
    have hruns : Runs begins s t :=
      Relation.ReflTransGen.mono (fun _ _ ⟨j, supply, hstep⟩ ↦ ⟨_, hstep⟩) _ _ ht
    obtain ⟨j, -, hstep⟩ := hadvances t hruns i hi fun _ ↦ Classical.ofNonempty
    exact ⟨j, _, hstep⟩

end Relational
