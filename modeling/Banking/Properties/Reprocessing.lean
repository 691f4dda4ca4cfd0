import Banking.Properties.DeadLetters
import Banking.Scripts.ReprocessDlq

/-!
# Reprocessing across runs

A run goes on where its consumer group stopped, and the group is named by the process id. Runs with
one process id never send again what an earlier one has committed; a run with another process id
starts at the beginning.
-/

namespace Banking.Consumer.Reprocess

variable {runtime : Runtime} {s s' : State}

/-- No run sends a message whose offset an earlier run has committed. -/
def NeverRepeated (s : State) : Prop :=
  ∀ x ∈ s.sent, ∀ c ∈ s.commits, c.run < x.run → c.partition = x.partition → c.offset ≠ x.offset

/-- The process ids of the runs that are started. -/
def pidsOf (actions : List Action) : List Nat :=
  actions.filterMap fun
    | .start pid => some pid
    | _ => none

/-! ### One process id -/

/-- Everything committed is below the committed offset of the group. -/
def Bounded (s : State) (pid : Nat) : Prop :=
  ∀ c ∈ s.commits, c.offset < s.resume pid c.partition

/-- The run is the latest, and is past everything committed before it. -/
structure Ahead (s : State) (pid : Nat) (run : Run) : Prop where
  pid : run.pid = pid
  latest : run.number + 1 = s.started
  reached : ∀ c ∈ s.commits, c.offset ≤ run.position c.partition
  passed : ∀ c ∈ s.commits, c.run < run.number → c.offset < run.position c.partition

/-- All runs have the process id, and no run has repeated another. -/
structure Safe (pid : Nat) (s : State) : Prop where
  repeated : NeverRepeated s
  bounded : Bounded s pid
  active : ∀ run, s.active = some run → Ahead s pid run
  sent : ∀ x ∈ s.sent, x.run < s.started
  commits : ∀ c ∈ s.commits, c.run < s.started

variable {pid : Nat} {run : Run}

/-- A run that is past everything committed repeats nothing by sending. -/
theorem Safe.send (hs : Safe pid s) (hrun : s.active = some run) (partition : Nat) :
    Safe pid (s.send run partition) where
  repeated := by
    intro x hx c hc hlater hpartition
    rcases List.mem_append.mp hx with hx | hx
    · exact hs.repeated x hx c hc hlater hpartition
    · rw [List.mem_singleton.mp hx] at hlater hpartition ⊢
      have hpassed := (hs.active run hrun).passed c hc hlater
      rw [hpartition] at hpassed
      exact Nat.ne_of_lt hpassed
  bounded := hs.bounded
  active := fun run' hrun' ↦
    ⟨(hs.active run' hrun').pid, (hs.active run' hrun').latest, (hs.active run' hrun').reached,
      (hs.active run' hrun').passed⟩
  sent := by
    intro x hx
    rcases List.mem_append.mp hx with hx | hx
    · exact hs.sent x hx
    · rw [List.mem_singleton.mp hx]
      exact Nat.lt_of_lt_of_eq (Nat.lt_succ_self _) (hs.active run hrun).latest
  commits := hs.commits

/-- Where the group goes on after a commit. -/
theorem resume_commit (hpid : run.pid = pid) (partition q : Nat) :
    (s.commit run partition).resume pid q =
      if q = partition then run.position partition + 1 else s.resume pid q := by
  subst hpid
  simp only [State.resume, State.commit, Function.update_self]
  split
  · next hq => rw [hq, Function.update_self, Option.getD_some]
  · next hq => rw [Function.update_of_ne hq]

/-- The latest run commits no message that another run has still to send. -/
theorem Safe.commit (hs : Safe pid s) (hrun : s.active = some run) (partition : Nat) :
    Safe pid (s.commit run partition) where
  repeated := by
    intro x hx c hc hlater hpartition
    rcases List.mem_append.mp hc with hc | hc
    · exact hs.repeated x hx c hc hlater hpartition
    · rw [List.mem_singleton.mp hc] at hlater
      have hlatest := (hs.active run hrun).latest
      have hsent := hs.sent x hx
      dsimp only at hlater
      omega
  bounded := by
    intro c hc
    rw [resume_commit (hs.active run hrun).pid]
    rcases List.mem_append.mp hc with hc | hc
    · split
      · next hpartition =>
        rw [← hpartition]
        exact Nat.lt_succ_of_le ((hs.active run hrun).reached c hc)
      · exact hs.bounded c hc
    · rw [List.mem_singleton.mp hc, if_pos rfl]
      exact Nat.lt_succ_self _
  active := by
    intro run' hrun'
    obtain rfl := Option.some.inj (hrun.symm.trans hrun')
    obtain ⟨hpid, hlatest, hreached, hpassed⟩ := hs.active run hrun
    refine ⟨hpid, hlatest, fun c hc ↦ ?_, fun c hc hearlier ↦ ?_⟩
    · rcases List.mem_append.mp hc with hc | hc
      · exact hreached c hc
      · rw [List.mem_singleton.mp hc]
    · rcases List.mem_append.mp hc with hc | hc
      · exact hpassed c hc hearlier
      · rw [List.mem_singleton.mp hc] at hearlier
        exact absurd hearlier (Nat.lt_irrefl _)
  sent := hs.sent
  commits := by
    intro c hc
    rcases List.mem_append.mp hc with hc | hc
    · exact hs.commits c hc
    · rw [List.mem_singleton.mp hc]
      exact Nat.lt_of_lt_of_eq (Nat.lt_succ_self _) (hs.active run hrun).latest

/-- A run that stays past everything committed may move. -/
theorem Safe.move (hs : Safe pid s) {active : Option Run}
    (hactive : ∀ run, active = some run → Ahead s pid run) :
    Safe pid { s with active } :=
  ⟨hs.repeated, hs.bounded, fun run hrun ↦
    ⟨(hactive run hrun).pid, (hactive run hrun).latest, (hactive run hrun).reached,
      (hactive run hrun).passed⟩, hs.sent, hs.commits⟩

/-- Going on to the next message only moves the run forward. -/
theorem Safe.advance (hs : Safe pid s) (hrun : s.active = some run) (partition : Nat) :
    Safe pid (s.advance run partition) := by
  obtain ⟨hpid, hlatest, hreached, hpassed⟩ := hs.active run hrun
  refine hs.move fun run' hrun' ↦ ?_
  cases hrun'
  have hle : ∀ q, run.position q ≤
      Function.update run.position partition (run.position partition + 1) q := by
    intro q
    by_cases hq : q = partition
    · rw [hq, Function.update_self]
      exact Nat.le_succ _
    · rw [Function.update_of_ne hq]
  exact ⟨hpid, hlatest, fun c hc ↦ Nat.le_trans (hreached c hc) (hle _),
    fun c hc hearlier ↦ Nat.lt_of_lt_of_le (hpassed c hc hearlier) (hle _)⟩

/-- The handler keeps the runs safe however it ends. -/
theorem Safe.handle (hs : Safe pid s) (hrun : s.active = some run) (partition : Nat)
    (outcome : Outcome) : Safe pid (s.handle run partition outcome) := by
  have hsent := hs.send hrun partition
  have hcommitted := hsent.commit hrun partition
  cases outcome with
  | unsent delivered =>
    cases delivered
    · exact hs
    · exact hsent
  | uncommitted applied =>
    cases applied
    · exact hsent
    · exact hcommitted
  | committed => exact hcommitted.advance hrun partition

/-- A step that starts no other process id keeps the runs safe. -/
theorem safe_step {a : Action} (hpid : ∀ pid', a = .start pid' → pid' = pid)
    (hstep : step runtime s a = some s') (hs : Safe pid s) : Safe pid s' := by
  cases a with
  | append partition message =>
    cases hstep
    exact ⟨hs.repeated, hs.bounded, fun run hrun ↦
      ⟨(hs.active run hrun).pid, (hs.active run hrun).latest, (hs.active run hrun).reached,
        (hs.active run hrun).passed⟩, hs.sent, hs.commits⟩
  | start pid' =>
    obtain rfl := hpid pid' rfl
    simp only [step] at hstep
    split at hstep
    · cases hstep
      refine ⟨hs.repeated, hs.bounded, fun run hrun ↦ ?_,
        fun x hx ↦ Nat.lt_succ_of_lt (hs.sent x hx),
        fun c hc ↦ Nat.lt_succ_of_lt (hs.commits c hc)⟩
      cases hrun
      exact ⟨rfl, rfl, fun c hc ↦ Nat.le_of_lt (hs.bounded c hc), fun c hc _ ↦ hs.bounded c hc⟩
    · cases hstep
  | eachMessage partition outcome =>
    simp only [step] at hstep
    split at hstep
    · next run hrun =>
      split at hstep
      · split at hstep
        · cases hstep
          exact hs.handle hrun partition outcome
        · cases hstep
          exact hs
      · cases hstep
    · cases hstep
  | rejoin =>
    simp only [step] at hstep
    split at hstep
    · next run hrun =>
      cases hstep
      refine hs.move fun run' hrun' ↦ ?_
      cases hrun'
      obtain ⟨hpid, hlatest, -, -⟩ := hs.active run hrun
      rw [hpid]
      exact ⟨rfl, hlatest, fun c hc ↦ Nat.le_of_lt (hs.bounded c hc), fun c hc _ ↦ hs.bounded c hc⟩
    · cases hstep
  | stop =>
    simp only [step] at hstep
    split at hstep
    · cases hstep
      exact hs.move nofun
    · cases hstep

/-- The empty queue, before any run. -/
theorem safe_initial (pid : Nat) : Safe pid .initial where
  repeated := nofun
  bounded := nofun
  active := nofun
  sent := nofun
  commits := nofun

/-- Runs with one process id repeat nothing. -/
theorem throughout_of_pid (pid : Nat) {actions : List Action}
    (hpids : ∀ p ∈ pidsOf actions, p = pid) (hs : Safe pid s) :
    Relational.Throughout (step runtime) NeverRepeated s actions := by
  induction actions generalizing s with
  | nil => exact hs.repeated
  | cons a actions ih =>
    refine ⟨hs.repeated, fun s' hstep ↦ ih (fun p hp ↦ hpids p ?_) (safe_step ?_ hstep hs)⟩
    · rw [pidsOf, List.filterMap_cons]
      split
      · exact hp
      · exact List.mem_cons_of_mem _ hp
    · rintro pid' rfl
      exact hpids pid' List.mem_cons_self

/-! ### Two process ids -/

/-- Groups of different process ids have different names. -/
theorem groupId_inj {p q : Nat} (h : groupId p = groupId q) : p = q := by
  have hdigits : String.ofList (Nat.toDigits 10 p) = String.ofList (Nat.toDigits 10 q) :=
    (String.append_right_inj _).mp h
  rw [String.ofList_inj] at hdigits
  have hnumber := congrArg (fun cs ↦ Nat.ofDigitChars 10 cs 0) hdigits
  simpa only [Nat.ofDigitChars_toDigits (b := 10) (by decide) (by decide)] using hnumber

/-- Runs that only start and stop. -/
def idle (pids : List Nat) : List Action := pids.flatMap fun pid ↦ [.start pid, .stop]

/-- Idle runs leave everything but the number of runs. -/
theorem execute_idle (hactive : s.active = none) (pids : List Nat) :
    Relational.execute (step runtime) s (idle pids) =
      some { s with started := s.started + pids.length } := by
  induction pids generalizing s with
  | nil => rfl
  | cons pid pids ih =>
    have hstep : Relational.execute (step runtime) s [.start pid, .stop] =
        some { s with active := none, started := s.started + 1 } := by
      simp [Relational.execute, step, hactive]
    have hrest := ih (s := { s with active := none, started := s.started + 1 }) rfl
    rw [idle, List.flatMap_cons, Relational.execute_append hstep]
    refine hrest.trans ?_
    rw [List.length_cons, Nat.add_right_comm, hactive]
    rfl

/-- One process commits a message, others start and stop, and a last one starts. -/
def repeating (message : KafkaMessage) (p : Nat) (between : List Nat) (q : Nat) : List Action :=
  [.append 0 message, .start p, .eachMessage 0 .committed, .stop] ++ idle between ++
    [.start q, .eachMessage 0 .committed]

/-- A process with another id sends again what the first has committed. -/
theorem repeats {message sent : KafkaMessage} (hok : reprocessed runtime message = .ok sent)
    {p q : Nat} (hne : p ≠ q) (between : List Nat) : ∃ s,
      Relational.execute (step runtime) .initial (repeating message p between q) = some s ∧
        ¬ NeverRepeated s := by
  have hgroup : groupId q ≠ groupId p := fun h ↦ hne (groupId_inj h).symm
  -- the first run commits the only message
  obtain ⟨t, ht, hactive, hlog, hgone, hstarted, hcommits⟩ : ∃ t : State,
      Relational.execute (step runtime) .initial
        [.append 0 message, .start p, .eachMessage 0 .committed, .stop] = some t ∧
      t.active = none ∧ t.log 0 = [message] ∧ t.committed (groupId q) 0 = none ∧
      0 < t.started ∧ ⟨0, 0, 0⟩ ∈ t.commits := by
    refine ⟨_, by simp [Relational.execute, step, State.initial, State.resume, hok, State.handle,
      State.send, State.commit, State.advance]; rfl, rfl, ?_, ?_, Nat.zero_lt_one,
      List.mem_singleton_self _⟩
    · simp
    · simp [Function.update_of_ne hgroup]
  obtain ⟨log, committed, active, started, sent, commits⟩ := t
  subst hactive
  dsimp only at hlog hgone hstarted hcommits
  -- the last one starts at the beginning
  obtain ⟨s, hs, hsent, hkept⟩ : ∃ s : State,
      Relational.execute (step runtime)
        ⟨log, committed, none, started + between.length, sent, commits⟩
        [.start q, .eachMessage 0 .committed] = some s ∧
      ⟨started + between.length, 0, 0⟩ ∈ s.sent ∧ ⟨0, 0, 0⟩ ∈ s.commits := by
    refine ⟨_, by simp [Relational.execute, step, State.resume, hgone, hlog, hok]; rfl, ?_, ?_⟩
    · simp [State.handle, State.send, State.commit, State.advance, State.resume, hgone]
    · simp [State.handle, State.send, State.commit, State.advance, hcommits]
  refine ⟨s, ?_, fun hnever ↦ ?_⟩
  · rw [repeating, List.append_assoc, Relational.execute_append ht,
      Relational.execute_append (execute_idle rfl between), hs]
  · exact hnever _ hsent _ hkept (Nat.add_pos_left hstarted _) rfl rfl

/-- The process ids of idle runs. -/
theorem pidsOf_idle (pids : List Nat) : pidsOf (idle pids) = pids := by
  induction pids with
  | nil => rfl
  | cons pid pids ih =>
    rw [idle, List.flatMap_cons, pidsOf, List.filterMap_append]
    exact congrArg (pid :: ·) ih

/-- If the script accepts any message at all, runs with these process ids repeat nothing, whatever
is written to the queue and however the handlers end, if and only if the ids are all the same. -/
theorem never_repeated_iff {message sent : KafkaMessage}
    (hok : reprocessed runtime message = .ok sent) (pids : List Nat) :
    (∀ actions, pidsOf actions = pids →
        Relational.Throughout (step runtime) NeverRepeated .initial actions) ↔
      ∀ p ∈ pids, ∀ q ∈ pids, p = q := by
  constructor
  · intro h
    cases pids with
    | nil => exact nofun
    | cons p rest =>
      have hsame : ∀ q ∈ rest, p = q := by
        intro q hq
        by_contra hne
        obtain ⟨between, after, rfl⟩ := List.append_of_mem hq
        obtain ⟨s, hs, hrepeats⟩ := repeats hok hne between
        have hpids : pidsOf (repeating message p between q ++ .stop :: idle after) =
            p :: (between ++ q :: after) := by
          simp only [repeating, pidsOf, List.filterMap_append, List.filterMap_cons,
            List.filterMap_nil]
          have hbetween := pidsOf_idle between
          have hafter := pidsOf_idle after
          simp only [pidsOf] at hbetween hafter
          rw [hbetween, hafter]
          simp
        exact hrepeats (((h _ hpids).rest hs).head)
      intro a ha b hb
      have hsame' : ∀ q ∈ p :: rest, p = q := by
        intro q hq
        rcases List.mem_cons.mp hq with rfl | hq
        · rfl
        · exact hsame q hq
      exact (hsame' a ha).symm.trans (hsame' b hb)
  · intro hsame actions hpids
    cases pids with
    | nil =>
      refine throughout_of_pid 0 (fun p hp ↦ ?_) (safe_initial 0)
      rw [hpids] at hp
      cases hp
    | cons p rest =>
      refine throughout_of_pid p (fun q hq ↦ ?_) (safe_initial p)
      exact hsame q (hpids ▸ hq) p List.mem_cons_self

/-! ### Two runs -/

namespace Sample

open DeadLetterSample

/-- The dead letter of a message with an empty value. -/
def letter : KafkaMessage :=
  (dlqMessage worker (payload none (some (utf8 ""))) noValue 1 0).stored
    (letterText noValue "\"\"")

theorem accepts_letter : ∃ sent, reprocessed worker.runtime letter = .ok sent :=
  ⟨_, reprocessed_dlqMessage toString_utf8 (letterText_ne_empty _ _) parse_dlqMessage_empty⟩

end Sample

/-- The script is run twice, as processes 1 and 2: the second run sends again what the first has
committed. -/
theorem second_run_repeats : ∃ s,
    Relational.execute (step DeadLetterSample.worker.runtime) .initial [.append 0 Sample.letter,
      .start 1, .eachMessage 0 .committed, .stop, .start 2, .eachMessage 0 .committed] = some s ∧
      ¬ NeverRepeated s := by
  obtain ⟨sent, hok⟩ := Sample.accepts_letter
  have hne : (1 : Nat) ≠ 2 := by decide
  exact repeats hok hne []

/-- Two runs of process 1 repeat nothing. -/
theorem never_repeated_iff_same :
    Relational.Throughout (step DeadLetterSample.worker.runtime) NeverRepeated .initial
      [.append 0 Sample.letter, .start 1, .eachMessage 0 .committed, .stop, .start 1,
        .append 0 Sample.letter, .eachMessage 0 .committed] := by
  obtain ⟨sent, hok⟩ := Sample.accepts_letter
  exact (never_repeated_iff hok [1, 1]).mpr (by decide) _ rfl

end Banking.Consumer.Reprocess
