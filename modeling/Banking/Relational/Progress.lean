import Banking.Relational.Alone
import Banking.Relational.Guarantee

/-!
# What a run can still do

Library `Relational`. From every reachable state the running processes may be cut off, which leaves
the committed database without locks; and what a program does alone, it can then do in the machine.
So a reachable state has no lock that nobody can ever get, and whatever a sequential program
achieves on its database can still be achieved.
-/

namespace Relational

variable {D Lock Supply Call Reply : Type} [DecidableEq Lock]
variable {begins : Call → D → Option (Tx D Lock Supply Reply)}
variable {s s' : State D Lock Supply Call Reply} {db₀ : D} {now : Int}

/-- The process is between two statements. -/
def State.isRunning (s : State D Lock Supply Call Reply) (i : Nat) : Prop :=
  ∃ call born program pending, s.session i = some ⟨call, born, .running program pending⟩

/-- Only finitely many processes have started. -/
theorem exists_unstarted (h : Runs begins (State.initial db₀ now) s) :
    ∃ n, ∀ j, n ≤ j → s.session j = none := by
  induction h with
  | refl => exact ⟨0, fun _ _ ↦ rfl⟩
  | @tail t t' hrun hstep ih =>
    obtain ⟨a, ha⟩ := hstep
    obtain ⟨n, hn⟩ := ih
    have key : ∀ (i : Nat) (x : Session D Lock Supply Call Reply),
        t'.session = (fun j ↦ if j = i then some x else t.session j) →
          ∃ n, ∀ j, n ≤ j → t'.session j = none := by
      intro i x hsession
      refine ⟨max n (i + 1), fun j hj ↦ ?_⟩
      rw [hsession]
      dsimp only
      rw [if_neg (by omega)]
      exact hn j (by omega)
    cases step_kind ha with
    | start free hb => exact key _ _ rfl
    | stmt hi free => exact key _ _ rfl
    | commit hi => exact key _ _ rfl
    | done hi ends => exact key _ _ rfl
    | fail hi => exact key _ _ rfl
    | tick ht => exact ⟨n, hn⟩

variable (begins) in
/-- The processes below `k` may be cut off. -/
private theorem exists_cut (s : State D Lock Supply Call Reply) (k : Nat) :
    ∃ s', Runs begins s s' ∧ s'.db = s.db ∧ s'.clock = s.clock ∧
      (∀ j, j < k → ¬ s'.isRunning j) ∧ ∀ j, k ≤ j → s'.session j = s.session j := by
  induction k with
  | zero => exact ⟨s, .refl, rfl, rfl, fun _ hj ↦ absurd hj (Nat.not_lt_zero _), fun _ _ ↦ rfl⟩
  | succ k ih =>
    obtain ⟨t, hrun, hdb, hclock, hcut, hsame⟩ := ih
    by_cases hk : t.isRunning k
    · obtain ⟨call, born, program, pending, hk⟩ := hk
      have hstep : step begins t (.fail k) = some (t.finish k call born .failed) := by
        simp only [step, hk]
      have hsession : (t.finish k call born .failed).session =
        fun j ↦ if j = k then some ⟨call, born, .done .failed⟩ else t.session j := rfl
      refine ⟨_, .tail hrun ⟨_, hstep⟩, hdb, hclock, fun j hj ↦ ?_, fun j hj ↦ ?_⟩
      · rintro ⟨call', born', program', pending', hj'⟩
        rw [hsession] at hj'
        dsimp only at hj'
        split at hj'
        · cases hj'
        · exact hcut j (by omega) ⟨_, _, _, _, hj'⟩
      · rw [hsession]
        dsimp only
        rw [if_neg (by omega)]
        exact hsame j (by omega)
    · refine ⟨t, hrun, hdb, hclock, fun j hj ↦ ?_, fun j hj ↦ hsame j (by omega)⟩
      rcases Nat.lt_succ_iff_lt_or_eq.mp hj with hlt | rfl
      · exact hcut j hlt
      · exact hk

/-- Every reachable state can lose its locks and keep its database. -/
theorem exists_idle (h : Runs begins (State.initial db₀ now) s) :
    ∃ s', Runs begins s s' ∧ s'.db = s.db ∧ s'.clock = s.clock ∧ ∀ l, s'.owner l = none := by
  obtain ⟨n, hn⟩ := exists_unstarted h
  obtain ⟨t, hrun, hdb, hclock, hcut, hsame⟩ := exists_cut begins s n
  refine ⟨t, hrun, hdb, hclock, fun l ↦ ?_⟩
  cases howner : t.owner l with
  | none => rfl
  | some i =>
    obtain ⟨call, born, program, pending, hrunning⟩ :=
      (sound_trivial (h.trans hrun)).owners l i howner
    by_cases hlt : i < n
    · exact absurd ⟨_, _, _, _, hrunning⟩ (hcut i hlt)
    · rw [hsame i (by omega), hn i (by omega)] at hrunning
      cases hrunning

variable (begins) in
/-- While no other process owns a lock, a process does what the first part of its program does
alone, and goes on with the rest. -/
private theorem exists_executed {α : Type} {i : Nat} {call : Call} {born : D}
    {supply : Nat → Supply} {r : α} {a : D} {f : α → Tx D Lock Supply Reply}
    {program : Tx D Lock Supply α} :
    ∀ {pending : D → D} {n : Nat} {s : State D Lock Supply Call Reply},
      s.session i = some ⟨call, born, .running (program >>= f) pending⟩ →
      (∀ l, s.owner l = none ∨ s.owner l = some i) →
      program.perform (fun k ↦ ⟨s.clock, supply k⟩) n pending s.db = (some r, a) →
      ∃ s' pending', Runs begins s s' ∧ s'.db = a ∧ s'.clock = s.clock ∧
        s'.session i = some ⟨call, born, .running (f r) pending'⟩ := by
  induction program with
  | pure r' =>
    intro pending n s hi hfree hperform
    cases hperform
    exact ⟨s, pending, .refl, rfl, rfl, hi⟩
  | throw =>
    intro pending n s hi hfree hperform
    cases hperform
  | commit next ih =>
    intro pending n s hi hfree hperform
    have hstep : step begins s (.exec i (supply 0)) =
        some (s.publish i call born pending (next >>= f)) := by
      simp only [step, hi]
      rfl
    have hreleased : ∀ l, (s.publish i call born pending (next >>= f)).owner l = none := by
      intro l
      rcases hfree l with hl | hl <;> simp [State.publish, State.setSession, State.release, hl]
    obtain ⟨s', pending', hrun, hdb, hclock, hdone⟩ :=
      ih (s := s.publish i call born pending (next >>= f)) (if_pos rfl)
        (fun l ↦ .inl (hreleased l)) hperform
    exact ⟨s', pending', .head ⟨_, hstep⟩ hrun, hdb, hclock, hdone⟩
  | stmt locks write next ih =>
    intro pending n s hi hfree hperform
    let t := (s.acquire i (locks ⟨s.clock, supply n⟩ (pending s.db))).setSession i
      ⟨call, born, .running (next ⟨s.clock, supply n⟩ (pending s.db) >>= f)
        (fun db ↦ write ⟨s.clock, supply n⟩ (pending s.db) (pending db))⟩
    have hgranted : s.granted i (locks ⟨s.clock, supply n⟩ (pending s.db)) = true := by
      refine List.all_eq_true.mpr fun l _ ↦ ?_
      simpa using hfree l
    have hstep : step begins s (.exec i (supply n)) = some t := by
      simp only [step, hi]
      exact if_pos hgranted
    have hacquired : ∀ l, t.owner l = none ∨ t.owner l = some i := by
      intro l
      simp only [t, State.setSession, State.acquire]
      split
      · exact .inr rfl
      · exact hfree l
    obtain ⟨s', pending', hrun, hdb, hclock, hdone⟩ :=
      ih ⟨s.clock, supply n⟩ (pending s.db) (s := t) (if_pos rfl) hacquired hperform
    exact ⟨s', pending', .head ⟨_, hstep⟩ hrun, hdb, hclock, hdone⟩

/-- From every reachable state a call can still do what the first part of its program does alone on
the committed database. -/
theorem exists_performed {α : Type} (h : Runs begins (State.initial db₀ now) s) (call : Call)
    {program : Tx D Lock Supply α} {f : α → Tx D Lock Supply Reply} (supply : Nat → Supply) {r : α}
    {a : D} (hbegins : begins call s.db = some (program >>= f))
    (hperform : program.perform (fun k ↦ ⟨s.clock, supply k⟩) 0 id s.db = (some r, a)) :
    ∃ s', Runs begins s s' ∧ s'.db = a ∧ s'.clock = s.clock ∧
      ∃ i pending, s'.session i = some ⟨call, s.db, .running (f r) pending⟩ := by
  obtain ⟨t, hrun, hdb, hclock, hidle⟩ := exists_idle h
  obtain ⟨n, hn⟩ := exists_unstarted (h.trans hrun)
  rw [← hdb] at hbegins hperform
  have hstep : step begins t (.start n call) =
      some (t.setSession n ⟨call, t.db, .running (program >>= f) id⟩) := by
    simp only [step, hn n (Nat.le_refl n), hbegins]
  rw [← hclock] at hperform
  obtain ⟨s', pending, hrun', hdb', hclock', hdone⟩ := exists_executed begins
    (s := t.setSession n ⟨call, t.db, .running (program >>= f) id⟩) (if_pos rfl)
    (fun l ↦ .inl (hidle l)) hperform
  refine ⟨s', hrun.trans (.head ⟨_, hstep⟩ hrun'), hdb', hclock'.trans hclock, n, pending, ?_⟩
  rw [hdone, hdb]

end Relational
