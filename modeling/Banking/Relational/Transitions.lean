import Mathlib.Logic.Relation

/-!
# Runs of a transition function

Library `Relational`. A partial function that takes a state and an action to the next state
determines the runs of a system. Runs come with the induction rule for invariants, with and
without a condition on the actions, and with an executable form.
-/

namespace Relational

variable {S A : Type}

/-- Finitely many steps. -/
def Steps (step : S → A → Option S) : S → S → Prop :=
  Relation.ReflTransGen (fun s s' ↦ ∃ a, step s a = some s')

/-- Finitely many steps, each of which meets `allow` in the state before it. -/
def StepsUnder (step : S → A → Option S) (allow : S → A → Prop) : S → S → Prop :=
  Relation.ReflTransGen (fun s s' ↦ ∃ a, allow s a ∧ step s a = some s')

/-- Execute a list of actions. -/
def execute (step : S → A → Option S) (s : S) (actions : List A) : Option S :=
  actions.foldlM step s

/-- Execute a list of actions as long as each of them passes `check`. -/
def executeUnder (step : S → A → Option S) (check : S → A → Bool) (s : S) (actions : List A) :
    Option S :=
  actions.foldlM (fun s a ↦ if check s a then step s a else none) s

/-- `P` holds in every state that the actions lead through. -/
def Throughout (step : S → A → Option S) (P : S → Prop) : S → List A → Prop
  | s, [] => P s
  | s, a :: actions => P s ∧ ∀ s', step s a = some s' → Throughout step P s' actions

/-- Every action meets `allow` in the state before it. -/
def Meets (step : S → A → Option S) (allow : S → A → Prop) : S → List A → Prop
  | _, [] => True
  | s, a :: actions => allow s a ∧ ∀ s', step s a = some s' → Meets step allow s' actions

variable {step : S → A → Option S} {s s' : S}

/-- What every step preserves, every run preserves. -/
theorem Steps.invariant {P : S → Prop} (hstep : ∀ s a s', step s a = some s' → P s → P s')
    (h : Steps step s s') (hs : P s) : P s' := by
  induction h with
  | refl => exact hs
  | tail _ ha ih =>
    obtain ⟨a, ha⟩ := ha
    exact hstep _ a _ ha ih

/-- What every step that meets the condition preserves, every run under the condition
preserves. -/
theorem StepsUnder.invariant {allow : S → A → Prop} {P : S → Prop}
    (hstep : ∀ s a s', allow s a → step s a = some s' → P s → P s')
    (h : StepsUnder step allow s s') (hs : P s) : P s' := by
  induction h with
  | refl => exact hs
  | tail _ ha ih =>
    obtain ⟨a, hallow, ha⟩ := ha
    exact hstep _ a _ hallow ha ih

/-- A run under a condition is a run. -/
theorem StepsUnder.steps {allow : S → A → Prop} (h : StepsUnder step allow s s') :
    Steps step s s' :=
  Relation.ReflTransGen.mono (fun _ _ ⟨a, _, ha⟩ ↦ ⟨a, ha⟩) _ _ h

/-- An executed list of actions is a run. -/
theorem steps_of_execute {actions : List A} (h : execute step s actions = some s') :
    Steps step s s' := by
  induction actions generalizing s with
  | nil =>
    cases h
    exact Relation.ReflTransGen.refl
  | cons a actions ih =>
    rw [execute, List.foldlM_cons] at h
    obtain ⟨t, ht, hrest⟩ := Option.bind_eq_some_iff.mp h
    exact Relation.ReflTransGen.head ⟨a, ht⟩ (ih hrest)

/-- A checked list of actions is a run under the check. -/
theorem stepsUnder_of_execute {check : S → A → Bool} {actions : List A}
    (h : executeUnder step check s actions = some s') :
    StepsUnder step (fun s a ↦ check s a = true) s s' := by
  induction actions generalizing s with
  | nil =>
    cases h
    exact Relation.ReflTransGen.refl
  | cons a actions ih =>
    rw [executeUnder, List.foldlM_cons] at h
    obtain ⟨t, ht, hrest⟩ := Option.bind_eq_some_iff.mp h
    split at ht
    · next hcheck => exact Relation.ReflTransGen.head ⟨a, hcheck, ht⟩ (ih hrest)
    · cases ht

/-- What holds throughout holds at the start. -/
theorem Throughout.head {P : S → Prop} {actions : List A} (h : Throughout step P s actions) :
    P s := by
  cases actions with
  | nil => exact h
  | cons a actions => exact h.1

/-- What holds throughout holds after the first actions, and throughout the rest. -/
theorem Throughout.rest {P : S → Prop} {first rest : List A}
    (h : Throughout step P s (first ++ rest)) (hfirst : execute step s first = some s') :
    Throughout step P s' rest := by
  induction first generalizing s with
  | nil =>
    cases hfirst
    exact h
  | cons a first ih =>
    rw [execute, List.foldlM_cons] at hfirst
    obtain ⟨t, ht, hfirst⟩ := Option.bind_eq_some_iff.mp hfirst
    exact ih (h.2 t ht) hfirst

/-- Actions that are executed one list after the other. -/
theorem execute_append {first rest : List A} {t : S} (hfirst : execute step s first = some t) :
    execute step s (first ++ rest) = execute step t rest := by
  rw [execute, List.foldlM_append]
  exact congrArg (fun x ↦ x >>= fun t ↦ execute step t rest) hfirst

/-- If the counted steps lower a rank until the goal is reached, and no step raises it or leaves the
goal, then a run reaches the goal or has counted no more steps than the rank allows. -/
theorem goal_or_rank_of_execute {I Q : S → Prop} {allow : A → Prop} (counts : A → Bool)
    (rank : S → Nat) (hstep : ∀ s a s', allow a → step s a = some s' → I s →
      I s' ∧ (Q s → Q s') ∧ (Q s' ∨ rank s' + (if counts a then 1 else 0) ≤ rank s))
    {actions : List A} (hallow : ∀ a ∈ actions, allow a) (h : execute step s actions = some s')
    (hs : I s) : I s' ∧ (Q s → Q s') ∧ (Q s' ∨ rank s' + actions.countP counts ≤ rank s) := by
  induction actions generalizing s with
  | nil =>
    cases h
    exact ⟨hs, id, .inr (Nat.le_refl _)⟩
  | cons a actions ih =>
    rw [execute, List.foldlM_cons] at h
    obtain ⟨t, ht, hrest⟩ := Option.bind_eq_some_iff.mp h
    obtain ⟨hI, hQ, hrank⟩ := hstep s a t (hallow a List.mem_cons_self) ht hs
    obtain ⟨hI', hQ', hrank'⟩ :=
      ih (fun b hb ↦ hallow b (List.mem_cons_of_mem _ hb)) hrest hI
    refine ⟨hI', fun hq ↦ hQ' (hQ hq), ?_⟩
    rcases hrank with hgoal | hle
    · exact .inl (hQ' hgoal)
    · rcases hrank' with hgoal | hle'
      · exact .inl hgoal
      · rw [List.countP_cons]
        exact .inr (by omega)

/-- When the steps that meet a condition keep an invariant and the others break `P` at once, then
`P` holds throughout exactly when every action meets the condition. -/
theorem throughout_iff_meets {I P : S → Prop} {allow : S → A → Prop} (hP : ∀ s, I s → P s)
    (hkeep : ∀ s a s', allow s a → step s a = some s' → I s → I s')
    (hbreak : ∀ s a, ¬ allow s a → I s → ∃ s', step s a = some s' ∧ ¬ P s')
    (hs : I s) (actions : List A) :
    Throughout step P s actions ↔ Meets step allow s actions := by
  induction actions generalizing s with
  | nil => exact ⟨fun _ ↦ trivial, fun _ ↦ hP s hs⟩
  | cons a actions ih =>
    constructor
    · rintro ⟨-, hrest⟩
      have hallow : allow s a := Classical.byContradiction fun hnot ↦ by
        obtain ⟨s', hs', hbad⟩ := hbreak s a hnot hs
        exact hbad (hrest s' hs').head
      exact ⟨hallow, fun s' hs' ↦ (ih (hkeep s a s' hallow hs' hs)).mp (hrest s' hs')⟩
    · rintro ⟨hallow, hrest⟩
      exact ⟨hP s hs, fun s' hs' ↦ (ih (hkeep s a s' hallow hs' hs)).mpr (hrest s' hs')⟩

end Relational
