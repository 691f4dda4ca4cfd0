import Banking.Properties.Ordering
import Banking.Properties.Outbox

/-!
# One publisher empties the outbox

Whatever publishers have crashed and whatever they have left claimed: once the leases have expired,
a process that starts, meets no fault and is alone publishes every event. Every move that it makes
lowers a rank, so that it needs no more than seven moves an event.
-/

namespace Banking.Outbox

open Js (Date)
open Relational (Table)

/-! ### What is left to publish -/

/-- The row is not published. -/
def live (row : OutboxEvent) : Bool := decide (row.status ≠ .PUBLISHED)

/-- How many rows are not published. -/
def backlog (rows : Rows) : Nat := rows.rows.countP live

variable {rows : Rows} {id : String} {row : OutboxEvent} {now : Date}

/-- Without a backlog every row is published. -/
private theorem published_of_backlog (h : backlog rows = 0) (hrow : rows.find? id = some row) :
    row.status = .PUBLISHED := by
  have hnot := List.countP_eq_zero.mp h row (Table.mem_of_find? hrow)
  simpa [live] using hnot

/-- A live row that is due can be claimed. -/
private theorem claimable_of_due (hlive : live row = true) (hdue : row.nextAttemptAt ≤ now) :
    claimable now row = true := by
  cases hstatus : row.status with
  | PENDING => simp [claimable, hstatus, hdue]
  | PROCESSING => simp [claimable, hstatus, hdue]
  | PUBLISHED => simp [live, hstatus] at hlive

/-- A row that can be claimed is live. -/
private theorem live_of_claimable (h : claimable now row = true) : live row = true := by
  unfold live
  cases hstatus : row.status <;> simp [claimable, hstatus] at h ⊢

/-- A claim leaves the backlog as it is. -/
private theorem backlog_claim {input : ClaimPendingOutboxEventsInput} {chosen : List String}
    (h : isChoice input rows chosen = true) :
    backlog (claimPendingOutboxEvents input chosen rows).1 = backlog rows := by
  simp only [isChoice, Bool.and_eq_true, List.all_eq_true] at h
  unfold backlog claimPendingOutboxEvents Table.map
  rw [List.countP_map]
  refine List.countP_congr fun row hrow ↦ ?_
  simp only [Function.comp_apply]
  split
  · next hmem =>
    have hclaimable := h.1.2 row.id hmem
    rw [Table.find?_of_mem hrow, Option.any_some] at hclaimable
    rw [live_of_claimable hclaimable]
    rfl
  · exact Iff.rfl

/-- A mark of a held row lowers the backlog. -/
private theorem backlog_mark {input : UpdateClaimedOutboxEventInput} (publishedAt : Date)
    (hrow : rows.find? id = some row) (hheld : Held input row) :
    backlog (markOutboxEventPublished input publishedAt rows).1 < backlog rows := by
  unfold backlog markOutboxEventPublished updateHeld
  refine Table.countP_map_lt (fun r ↦ by split <;> rfl) (fun x _ hx ↦ ?_) (Table.mem_of_find? hrow)
    (by simp [live, hheld.2.1]) (by simp [hheld, live, published])
  split at hx
  · cases hx
  · exact hx

/-- A claim of at least one row returns one if there is one that is due. -/
private theorem taken_ne_nil {input : ClaimPendingOutboxEventsInput} {chosen : List String}
    (h : isChoice input rows chosen = true) (hlimit : 0 < input.limit)
    (hrow : rows.find? id = some row) (hclaimable : claimable input.now row = true) :
    (Statement.claim input).taken chosen rows ≠ [] := by
  intro hnil
  have hchosen := map_id_taken h
  rw [hnil, List.map_nil] at hchosen
  have hpos : 0 < (rows.rows.filter (claimable input.now)).length :=
    List.length_pos_of_mem (List.mem_filter.mpr ⟨Table.mem_of_find? hrow, hclaimable⟩)
  simp only [isChoice, Bool.and_eq_true, beq_iff_eq, ← hchosen, List.length_nil] at h
  omega

/-- Every claim can be executed. -/
private theorem exists_choice (input : ClaimPendingOutboxEventsInput) (rows : Rows) :
    ∃ chosen, isChoice input rows chosen = true := by
  refine ⟨((rows.rows.filter (claimable input.now)).map OutboxEvent.id).take input.limit, ?_⟩
  have hsub : List.Sublist ((rows.rows.filter (claimable input.now)).map OutboxEvent.id)
      (rows.rows.map OutboxEvent.id) := List.filter_sublist.map _
  simp only [isChoice, Bool.and_eq_true, decide_eq_true_eq, List.all_eq_true, beq_iff_eq,
    List.length_take, List.length_map, and_true]
  refine ⟨(rows.unique.sublist hsub).sublist (List.take_sublist _ _), fun id hid ↦ ?_⟩
  obtain ⟨row, hrow, rfl⟩ := List.mem_map.mp (List.mem_of_mem_take hid)
  obtain ⟨hmem, hclaimable⟩ := List.mem_filter.mp hrow
  rw [Table.find?_of_mem hmem, Option.any_some]
  exact hclaimable

/-! ### A process without faults -/

/-- What a process without faults is never doing, and what it asks for. -/
def Phase.Faultless : Phase → Prop
  | .claiming input => 0 < input.limit
  | .rescheduling _ _ _ _ => False
  | .stopped => False
  | _ => True

/-- The clock reading that a publisher goes by. -/
def Phase.reading (now : Date) : Phase → Date
  | .claiming input => input.now
  | _ => now

/-- A publisher without faults holds its leases, and every other live row is due. -/
structure Phase.Smooth (rows : Rows) (now : Date) (phase : Phase) : Prop where
  faultless : phase.Faultless
  reading : phase.reading now ≤ now
  held : ∀ e ∈ phase.events, rows.find? e.id = some e ∧ e.status = .PROCESSING
  nodup : (phase.events.map OutboxEvent.id).Nodup
  due : ∀ {id row}, rows.find? id = some row → live row = true →
    row.nextAttemptAt ≤ phase.reading now ∨ row ∈ phase.events

/-- What the process is doing; before it starts it is as if it were at the head of its loop. -/
def State.phaseOf (s : State) (p : Nat) : Phase := (s.publisher p).elim .loop Publisher.phase

/-- The process is not told to stop, and has met no fault. -/
structure State.Smooth (p : Nat) (s : State) : Prop where
  running : ∀ {x}, s.publisher p = some x → x.shuttingDown = false
  phase : (s.phaseOf p).Smooth s.rows (s.clock p)

namespace Phase.Smooth

variable {phase : Phase}

/-- Time may pass. -/
theorem later (h : phase.Smooth rows now) {now' : Date} (hle : now ≤ now') :
    phase.Smooth rows now' := by
  have hreading : phase.reading now ≤ phase.reading now' := by
    cases phase with
    | claiming input => exact Int.le_refl _
    | _ => exact hle
  refine ⟨h.faultless, ?_, h.held, h.nodup,
    fun hrow hlive ↦ (h.due hrow hlive).imp_left fun hdue ↦ Int.le_trans hdue hreading⟩
  have hnow := h.reading
  cases phase with
  | claiming input => exact Int.le_trans hnow hle
  | _ => exact Int.le_refl _

/-- A publisher that goes on with the same events is as smooth as before. -/
theorem congr {phase' : Phase} (h : phase.Smooth rows now) (hfaultless : phase'.Faultless)
    (hreading : phase.reading now = now) (hreading' : phase'.reading now = now)
    (hevents : phase'.events = phase.events) : phase'.Smooth rows now where
  faultless := hfaultless
  reading := Int.le_of_eq hreading'
  held := hevents ▸ h.held
  nodup := hevents ▸ h.nodup
  due := fun hrow hlive ↦ by
    rw [hreading', hevents]
    exact hreading ▸ h.due hrow hlive

/-- What a publisher does on its own. -/
theorem proceed {x : Publisher} (h : x.phase.Smooth rows now) (hx : x.shuttingDown = false)
    (hp : x.proceed now = some phase) : phase.Smooth rows now := by
  unfold Publisher.proceed Publisher.afterBatch at hp
  simp only [hx, Bool.false_eq_true, if_false] at hp
  cases hphase : x.phase with
  | loop =>
    rw [hphase] at h hp
    cases hp
    exact h.congr (Nat.zero_lt_succ _) rfl rfl rfl
  | batch events =>
    rw [hphase] at h hp
    cases events with
    | nil => cases hp; exact h.congr trivial rfl rfl rfl
    | cons event rest => cases hp; exact h.congr trivial rfl rfl rfl
  | sleeping =>
    rw [hphase] at h hp
    cases hp
    exact h.congr trivial rfl rfl rfl
  | claiming | sending | marking | rescheduling | stopped => simp [hphase] at hp

/-- The rows of a claim are held. -/
theorem claim {input : ClaimPendingOutboxEventsInput} {chosen : List String}
    (h : (Phase.claiming input).Smooth rows now) (hchoice : isChoice input rows chosen = true) :
    (Phase.batch ((Statement.claim input).taken chosen rows)).Smooth
      ((Statement.claim input).rows chosen rows) now where
  faultless := trivial
  reading := Int.le_refl now
  held := by
    intro e he
    have htaken : e ∈ (Statement.claim input).taken chosen rows := he
    have hfind := Statement.find?_of_mem_taken htaken
    refine ⟨hfind, ?_⟩
    have hid : e.id ∈ chosen := map_id_taken hchoice ▸ List.mem_map_of_mem htaken
    rw [Statement.find?_rows] at hfind
    obtain ⟨row, hrow, rfl⟩ := Option.map_eq_some_iff.mp hfind
    have hmem : row.id ∈ chosen := by
      rw [(Table.key_of_find? hrow : row.id = _)]
      exact hid
    have hw : (Statement.claim input).writes chosen row = true := decide_eq_true hmem
    rw [if_pos hw]
    rfl
  nodup := by
    change (((Statement.claim input).taken chosen rows).map OutboxEvent.id).Nodup
    rw [map_id_taken hchoice]
    simp only [isChoice, Bool.and_eq_true, decide_eq_true_eq] at hchoice
    exact hchoice.1.1
  due := by
    intro id row' hrow' hlive
    have hfind := hrow'
    rw [Statement.find?_rows] at hfind
    obtain ⟨row, hrow, rfl⟩ := Option.map_eq_some_iff.mp hfind
    by_cases hw : (Statement.claim input).writes chosen row = true
    · -- a chosen row is one of the batch
      have hmem : id ∈ chosen := by
        have hid : row.id ∈ chosen := of_decide_eq_true hw
        rwa [(Table.key_of_find? hrow : row.id = id)] at hid
      exact .inr (List.mem_filterMap.mpr ⟨id, hmem, hrow'⟩)
    · rw [if_neg hw] at hlive ⊢
      rcases h.due hrow hlive with hdue | hnone
      · exact .inl (Int.le_trans hdue h.reading)
      · cases hnone

/-- A mark publishes the row at the head of the batch. -/
theorem mark {event : OutboxEvent} {rest : List OutboxEvent} {publishedAt : Date}
    (h : (Phase.marking event rest publishedAt).Smooth rows now) (chosen : List String) :
    (Phase.batch rest).Smooth
      ((Statement.mark (lease event) publishedAt).rows chosen rows) now where
  faultless := trivial
  reading := Int.le_refl now
  held := by
    intro e he
    obtain ⟨hrow, hstatus⟩ := h.held e (List.mem_cons_of_mem _ he)
    have hne : event.id ≠ e.id := by
      have hnodup := (List.nodup_cons.mp h.nodup).1
      exact fun heq ↦ hnodup (heq ▸ List.mem_map_of_mem he)
    refine ⟨?_, hstatus⟩
    rw [Statement.find?_rows, hrow, Option.map_some, if_neg]
    exact fun hw ↦ hne ((of_decide_eq_true hw : Held (lease event) e).1).symm
  nodup := (List.nodup_cons.mp h.nodup).2
  due := by
    intro id row' hfind hlive
    rw [Statement.find?_rows] at hfind
    obtain ⟨row, hrow, rfl⟩ := Option.map_eq_some_iff.mp hfind
    by_cases hw : (Statement.mark (lease event) publishedAt).writes chosen row = true
    · rw [if_pos hw] at hlive
      cases hlive
    · rw [if_neg hw] at hlive ⊢
      rcases h.due hrow hlive with hdue | hmem
      · exact .inl hdue
      · rcases List.mem_cons.mp hmem with rfl | hrest
        · exact absurd (decide_eq_true ⟨rfl, (h.held row List.mem_cons_self).2, rfl⟩) hw
        · exact .inr hrest

end Phase.Smooth

/-! ### A process alone -/

/-- The process goes on: it starts, does what it does on its own, or gets an answer. -/
def Action.moves (p : Nat) : Action → Bool
  | .start q => q == p
  | .proceed q => q == p
  | .acknowledge q => q == p
  | .answer q _ => q == p
  | _ => false

/-- The process goes on, or a clock does. -/
def Action.Alone (p : Nat) (a : Action) : Prop := a.moves p = true ∨ ∃ q now, a = .tick q now

/-- The number of moves after which a publisher at this point has emptied the table. -/
def Phase.rank (backlog : Nat) : Phase → Nat
  | .loop => 7 * backlog
  | .claiming _ => 7 * backlog - 1
  | .batch [] => 7 * backlog + 2
  | .batch (_ :: _) => 7 * backlog - 2
  | .sending _ _ => 7 * backlog - 3
  | .marking _ _ _ => 7 * backlog - 4
  | .rescheduling _ _ _ _ => 0
  | .sleeping => 7 * backlog + 1
  | .stopped => 0

/-- The number of moves after which the process has emptied the table. -/
def State.rank (p : Nat) (s : State) : Nat :=
  match s.publisher p with
  | none => 7 * backlog s.rows + 1
  | some x => x.phase.rank (backlog s.rows)

section

variable {s s' : State} {p : Nat} {x y : Publisher}

/-- A process that is doing something is doing that. -/
private theorem phaseOf_eq (hx : s.publisher p = some x) : s.phaseOf p = x.phase := by
  rw [State.phaseOf, hx]
  rfl

/-- The rank of a process that has started. -/
private theorem rank_eq (hx : s.publisher p = some x) :
    s.rank p = x.phase.rank (backlog s.rows) := by
  rw [State.rank, hx]

/-- What a publisher does on its own is a move. -/
private theorem rank_proceed {phase : Phase} (n : Nat) (hrunning : x.shuttingDown = false)
    (h : x.proceed now = some phase) : n = 0 ∨ phase.rank n + 1 ≤ x.phase.rank n := by
  unfold Publisher.proceed Publisher.afterBatch at h
  simp only [hrunning, Bool.false_eq_true, if_false] at h
  cases hphase : x.phase with
  | batch events =>
    rw [hphase] at h
    cases events with
    | nil =>
      cases h
      exact .inr (Nat.le_refl _)
    | cons event rest =>
      cases h
      simp only [Phase.rank]
      omega
  | loop | sleeping =>
    rw [hphase] at h
    cases h
    simp only [Phase.rank]
    omega
  | claiming | sending | marking | rescheduling | stopped => simp [hphase] at h

/-- A publisher that gets an answer without faults stays so, and the answer is a move. -/
private theorem smooth_answer {statement : Statement} {chosen : List String}
    (h : x.phase.Smooth rows now) (hawaited : x.phase.awaited = some statement)
    (hexecutable : statement.executable chosen rows = true) :
    (x.answered (statement.taken chosen rows)).Smooth (statement.rows chosen rows) now ∧
      (backlog rows = 0 → backlog (statement.rows chosen rows) = 0) ∧
      (backlog (statement.rows chosen rows) = 0 ∨
        (x.answered (statement.taken chosen rows)).rank (backlog (statement.rows chosen rows)) + 1 ≤
          x.phase.rank (backlog rows)) := by
  unfold Publisher.answered
  cases hphase : x.phase with
  | claiming input =>
    rw [hphase] at h hawaited
    cases hawaited
    have hbacklog : backlog ((Statement.claim input).rows chosen rows) = backlog rows :=
      backlog_claim hexecutable
    rw [hbacklog]
    refine ⟨h.claim hexecutable, id, ?_⟩
    rcases Nat.eq_zero_or_pos (backlog rows) with hzero | hpos
    · exact .inl hzero
    · -- a live row is due, so the claim returns one
      obtain ⟨row, hmem, hlive⟩ := List.countP_pos_iff.mp hpos
      have hrow := Table.find?_of_mem hmem
      have hdue : row.nextAttemptAt ≤ input.now :=
        (h.due hrow hlive).resolve_right List.not_mem_nil
      have htaken := taken_ne_nil hexecutable h.faultless hrow (claimable_of_due hlive hdue)
      obtain ⟨event, rest, hcons⟩ := List.exists_cons_of_ne_nil htaken
      rw [hcons]
      simp only [Phase.rank]
      omega
  | marking event rest publishedAt =>
    rw [hphase] at h hawaited
    cases hawaited
    obtain ⟨hrow, hstatus⟩ := h.held event List.mem_cons_self
    have hlower : backlog ((Statement.mark (lease event) publishedAt).rows chosen rows) <
        backlog rows := backlog_mark publishedAt hrow ⟨rfl, hstatus, rfl⟩
    refine ⟨h.mark chosen, by omega, .inr ?_⟩
    cases rest <;> simp only [Phase.rank] <;> omega
  | rescheduling event rest error now' =>
    rw [hphase] at h
    exact absurd h.faultless not_false
  | loop | batch | sending | sleeping | stopped =>
    rw [hphase] at hawaited
    cases hawaited

/-- A process that goes on to a smooth phase of lower rank. -/
private theorem goOn {t : State} {phase : Phase} {a : Action} (hmoves : a.moves p = true)
    (hrunning : x.shuttingDown = false) (hphase : phase.Smooth t.rows (t.clock p))
    (hzero : backlog s.rows = 0 → backlog t.rows = 0)
    (hrank : backlog t.rows = 0 ∨ phase.rank (backlog t.rows) + 1 ≤ s.rank p) :
    (t.setPhase p x phase).Smooth p ∧
      (backlog s.rows = 0 → backlog (t.setPhase p x phase).rows = 0) ∧
      (backlog (t.setPhase p x phase).rows = 0 ∨
        (t.setPhase p x phase).rank p + (if a.moves p then 1 else 0) ≤ s.rank p) := by
  have hself : (t.setPhase p x phase).publisher p = some { x with phase } :=
    Function.update_self _ _ _
  refine ⟨⟨fun hz ↦ ?_, ?_⟩, hzero, ?_⟩
  · cases hself.symm.trans hz
    exact hrunning
  · rw [phaseOf_eq hself]
    exact hphase
  · rw [rank_eq hself, if_pos hmoves]
    exact hrank

/-- A process alone stays without faults, and every move lowers its rank. -/
theorem smooth_step {a : Action} (ha : a.Alone p) (hstep : step s a = some s') (h : s.Smooth p) :
    s'.Smooth p ∧ (backlog s.rows = 0 → backlog s'.rows = 0) ∧
      (backlog s'.rows = 0 ∨ s'.rank p + (if a.moves p then 1 else 0) ≤ s.rank p) := by
  cases step_kind hstep with
  | @tick q now hle =>
    refine ⟨⟨h.running, h.phase.later ?_⟩, id, .inr (Nat.le_refl _)⟩
    by_cases hqp : p = q
    · subst hqp
      simpa using hle
    · simp [hqp]
  | @start q hnone =>
    obtain rfl : q = p := by simpa [Action.Alone, Action.moves] using ha
    have hphase := h.phase
    rw [State.phaseOf, hnone] at hphase
    refine goOn (x := ⟨false, .loop⟩) (beq_self_eq_true q) rfl hphase id (.inr ?_)
    rw [State.rank, hnone]
    exact Nat.le_refl _
  | @proceed q x phase hx hphase =>
    obtain rfl : q = p := by simpa [Action.Alone, Action.moves] using ha
    have hsmooth := h.phase
    rw [phaseOf_eq hx] at hsmooth
    refine goOn (beq_self_eq_true q) (h.running hx) (hsmooth.proceed (h.running hx) hphase) id ?_
    rw [rank_eq hx]
    exact rank_proceed (backlog s.rows) (h.running hx) hphase
  | @acknowledge q x event rest hx hphase =>
    obtain rfl : q = p := by simpa [Action.Alone, Action.moves] using ha
    obtain ⟨hrows, hclock, -, -⟩ := deliver_eq s event true true
    have hsmooth := h.phase
    rw [phaseOf_eq hx, hphase] at hsmooth
    have hmarking : (Phase.marking event rest (s.clock q)).Smooth s.rows (s.clock q) :=
      hsmooth.congr trivial rfl rfl rfl
    refine goOn (beq_self_eq_true q) (h.running hx) (hrows ▸ hclock ▸ hmarking)
      (fun hzero ↦ hrows ▸ hzero) ?_
    rw [rank_eq hx, hphase, hrows]
    change backlog s.rows = 0 ∨ 7 * backlog s.rows - 4 + 1 ≤ 7 * backlog s.rows - 3
    omega
  | @answer q x statement chosen t hx hawaited ht =>
    obtain rfl : q = p := by simpa [Action.Alone, Action.moves] using ha
    obtain ⟨hexecutable, hrows, -, hclock, -, -⟩ := executeStatement_eq ht
    have hsmooth := h.phase
    rw [phaseOf_eq hx] at hsmooth
    obtain ⟨hphase, hzero, hrank⟩ := smooth_answer hsmooth hawaited hexecutable
    rw [← hrows] at hphase hzero hrank
    refine goOn (beq_self_eq_true q) (h.running hx) (hclock ▸ hphase) hzero ?_
    rw [rank_eq hx]
    exact hrank
  | create | shutdown | crash | sendFails | reject | late =>
    simp [Action.Alone, Action.moves] at ha

/-- A process without faults can always go on. -/
theorem exists_move (h : s.Smooth p) : ∃ a : Action, a.moves p = true ∧ (step s a).isSome := by
  cases hx : s.publisher p with
  | none => exact ⟨.start p, beq_self_eq_true p, by simp [step, hx]⟩
  | some x =>
    have hrunning := h.running hx
    have hfaultless := h.phase.faultless
    rw [phaseOf_eq hx] at hfaultless
    cases hphase : x.phase with
    | loop | sleeping =>
      exact ⟨.proceed p, beq_self_eq_true p,
        by simp [step, hx, Publisher.proceed, hphase, hrunning]⟩
    | batch events =>
      refine ⟨.proceed p, beq_self_eq_true p, ?_⟩
      cases events <;> simp [step, hx, Publisher.proceed, hphase, hrunning]
    | sending event rest =>
      exact ⟨.acknowledge p, beq_self_eq_true p, by simp [step, hx, hphase]⟩
    | claiming input =>
      obtain ⟨chosen, hchoice⟩ := exists_choice input s.rows
      refine ⟨.answer p chosen, beq_self_eq_true p, ?_⟩
      simp [step, hx, hphase, Phase.awaited, State.executeStatement, Statement.executable, hchoice]
    | marking event rest publishedAt =>
      refine ⟨.answer p [], beq_self_eq_true p, ?_⟩
      simp [step, hx, hphase, Phase.awaited, State.executeStatement, Statement.executable]
    | rescheduling | stopped =>
      rw [hphase] at hfaultless
      exact absurd hfaultless not_false

end

/-! ### The run -/

/-- Every event of the earlier state is published in the later one, after Kafka has acknowledged
it. -/
def Drained (s s' : State) : Prop :=
  ∀ {id row}, s.rows.find? id = some row → ∃ row', s'.rows.find? id = some row' ∧
    SameEvent row row' ∧ row'.status = .PUBLISHED ∧ s'.Acknowledged row'

/-- Whatever other processes have left behind, once every unpublished event is due a process that
starts, is alone and meets no fault can always go on, and seven moves for every unpublished event
and two more have published everything. -/
theorem drains {clock : Nat → Date} {s s' : State} {p : Nat} (h : Runs (.initial clock) s)
    (hp : s.publisher p = none)
    (hdue : ∀ {id row}, s.rows.find? id = some row → row.status ≠ .PUBLISHED →
      row.nextAttemptAt ≤ s.clock p)
    {actions : List Action} (halone : ∀ a ∈ actions, a.Alone p)
    (hrun : Relational.execute step s actions = some s') :
    (∃ a : Action, a.moves p = true ∧ (step s' a).isSome) ∧
      (7 * backlog s.rows + 1 < actions.countP (Action.moves p) → Drained s s') := by
  have hsmooth : s.Smooth p := by
    refine ⟨fun hx ↦ by simp [hp] at hx, ?_⟩
    rw [State.phaseOf, hp]
    exact
      { faultless := trivial
        reading := Int.le_refl _
        held := fun e he ↦ absurd he List.not_mem_nil
        nodup := List.nodup_nil
        due := fun hrow hlive ↦ .inl (hdue hrow (of_decide_eq_true hlive)) }
  obtain ⟨hsmooth', -, hrank⟩ := Relational.goal_or_rank_of_execute (I := State.Smooth p)
    (Q := fun s ↦ backlog s.rows = 0) (Action.moves p) (State.rank p)
    (fun _ _ _ ha hstep hs ↦ smooth_step ha hstep hs) halone hrun hsmooth
  refine ⟨exists_move hsmooth', fun hmany id row hrow ↦ ?_⟩
  have hempty : backlog s'.rows = 0 := by
    refine hrank.resolve_right fun hle ↦ ?_
    have hfirst : s.rank p = 7 * backlog s.rows + 1 := by rw [State.rank, hp]
    omega
  have hruns := Relational.steps_of_execute hrun
  obtain ⟨row', hrow', hsame⟩ := (extends_runs h hruns).row hrow
  have hpublished := published_of_backlog hempty hrow'
  exact ⟨row', hrow', hsame, hpublished,
    (safe (Relation.ReflTransGen.trans h hruns)).acknowledged hrow' hpublished⟩

namespace Sample

/-- A process claims two events and crashes while it sends the first. -/
def abandoned : List Action :=
  [.create data "event-1" 0, .create data "event-2" 0, .start 0, .proceed 0,
    .answer 0 ["event-2", "event-1"], .proceed 0, .crash 0 true, .tick 1 30000]

/-- Another one publishes both and looks for more. -/
def recovery : List Action :=
  [.start 1, .proceed 1, .answer 1 ["event-1", "event-2"], .proceed 1, .acknowledge 1,
    .tick 1 31000, .answer 1 [], .proceed 1, .acknowledge 1, .answer 1 [], .proceed 1, .proceed 1,
    .proceed 1, .answer 1 [], .proceed 1, .proceed 1, .proceed 1]

end Sample

/-- The events that a crashed process held are published by its successor. -/
theorem drains_abandoned : ∃ s s',
    Relational.execute step (.initial fun _ ↦ 0) Sample.abandoned = some s ∧
      Relational.execute step s Sample.recovery = some s' ∧ backlog s.rows = 2 ∧ Drained s s' := by
  have hrun : (Relational.execute step (.initial fun _ ↦ 0) Sample.abandoned).map (fun s ↦
      (s.rows.rows.all fun row ↦ decide (row.nextAttemptAt ≤ s.clock 1), (s.publisher 1).isNone,
        (Relational.execute step s Sample.recovery).isSome, backlog s.rows)) =
      some (true, true, true, 2) := by
    decide +kernel
  obtain ⟨s, hs, hfacts⟩ := Option.map_eq_some_iff.mp hrun
  simp only [Prod.mk.injEq, List.all_eq_true, decide_eq_true_eq, Option.isNone_iff_eq_none,
    Option.isSome_iff_exists] at hfacts
  obtain ⟨hdue, hnone, ⟨s', hs'⟩, hbacklog⟩ := hfacts
  have halone : ∀ a ∈ Sample.recovery, a.Alone 1 := by
    simp [Sample.recovery, Action.Alone, Action.moves]
  have hdrained := (drains (Relational.steps_of_execute hs) hnone
    (fun hrow _ ↦ hdue _ (Table.mem_of_find? hrow)) halone hs').2
  exact ⟨s, s', hs, hs', hbacklog, hdrained (by rw [hbacklog]; decide)⟩

end Banking.Outbox
