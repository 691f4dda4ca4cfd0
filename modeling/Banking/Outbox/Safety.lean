import Banking.Outbox.Publisher

/-!
# What the publishers keep

Every call leaves each row in some version of itself and a published row as it is; so a state
extends every earlier one. The invariant says of each row that it was acknowledged or is due
again soon, and of each call that is under way that executing it keeps this, whenever that may
happen and whoever holds the lease by then.
-/

namespace Banking.Outbox

open Js (Date)
open Relational (Table)

/-- A retry is due after at most a minute. -/
theorem retryDelayMs_le (attempts : Nat) : retryDelayMs attempts ≤ 60000 := Nat.min_le_right _ _

/-! ### Versions of a row -/

/-- Two versions of one outbox row. -/
structure SameEvent (e e' : OutboxEvent) : Prop where
  data : e.toOutboxEventData = e'.toOutboxEventData
  id : e.id = e'.id
  createdAt : e.createdAt = e'.createdAt

namespace SameEvent

variable {e e' e'' : OutboxEvent}

/-- A row is a version of itself. -/
theorem refl (e : OutboxEvent) : SameEvent e e := ⟨rfl, rfl, rfl⟩

/-- A version of a version is a version. -/
theorem trans (h : SameEvent e e') (h' : SameEvent e' e'') : SameEvent e e'' :=
  ⟨h.data.trans h'.data, h.id.trans h'.id, h.createdAt.trans h'.createdAt⟩

/-- All versions of a row have one serialized form, topic and key. -/
theorem message (h : SameEvent e e') : message e = message e' := by
  have hdata := h.data
  have hid := h.id
  have hcreatedAt := h.createdAt
  cases e
  cases e'
  cases hdata
  cases hid
  cases hcreatedAt
  rfl

end SameEvent

/-- A call writes another version of the row. -/
theorem Statement.sameEvent_written (statement : Statement) (row : OutboxEvent) :
    SameEvent row (statement.written row) := by
  cases statement <;> exact ⟨rfl, rfl, rfl⟩

/-- A call changes the rows that it writes. -/
theorem Statement.find?_rows (statement : Statement) (chosen : List String) (rows : Rows)
    (id : String) :
    (statement.rows chosen rows).find? id =
      (rows.find? id).map (fun row ↦
        if statement.writes chosen row then statement.written row else row) := by
  cases statement with
  | claim input =>
    simp only [Statement.rows, find?_claim, writes, written, decide_eq_true_eq]
  | mark input publishedAt =>
    simp only [Statement.rows, markOutboxEventPublished, writes, written, decide_eq_true_eq]
    exact find?_updateHeld _ _ _ _ _
  | reschedule input now =>
    simp only [Statement.rows, rescheduleOutboxEvent, writes, written, decide_eq_true_eq]
    exact find?_updateHeld _ _ _ _ _

/-- No call writes a published row. -/
theorem Statement.live_of_writes {statement : Statement} {chosen : List String} {rows : Rows}
    {id : String} {row : OutboxEvent} (h : statement.executable chosen rows = true)
    (hrow : rows.find? id = some row) (hw : statement.writes chosen row = true) :
    row.status ≠ .PUBLISHED := by
  intro hpublished
  cases statement with
  | claim input =>
    simp only [executable, isChoice, Bool.and_eq_true, List.all_eq_true] at h
    have hchosen := h.1.2 row.id (of_decide_eq_true hw)
    rw [Table.key_of_find? hrow, hrow] at hchosen
    simp [claimable, hpublished] at hchosen
  | mark input publishedAt =>
    have hheld : Held input row := of_decide_eq_true hw
    simp [hheld.2.1] at hpublished
  | reschedule input now =>
    have hheld : Held input.toUpdateClaimedOutboxEventInput row := of_decide_eq_true hw
    simp [hheld.2.1] at hpublished

/-- A claim returns rows of the table as it leaves it. -/
theorem Statement.find?_of_mem_taken {statement : Statement} {chosen : List String} {rows : Rows}
    {e : OutboxEvent} (h : e ∈ statement.taken chosen rows) :
    (statement.rows chosen rows).find? e.id = some e := by
  cases statement with
  | claim input =>
    obtain ⟨id, -, he⟩ := List.mem_filterMap.mp h
    have hid : e.id = id := Table.key_of_find? he
    exact hid ▸ he
  | mark input publishedAt => cases h
  | reschedule input now => cases h

/-! ### Later states -/

namespace State

variable {s s' s'' : State}

/-- Kafka has acknowledged a send of the event. -/
def Acknowledged (s : State) (e : OutboxEvent) : Prop :=
  ∃ d ∈ s.deliveries, d.acknowledged = true ∧ d.message = message e

/-- The event is a version of a row of the table. -/
def Knows (s : State) (e : OutboxEvent) : Prop :=
  ∃ row, s.rows.find? e.id = some row ∧ SameEvent e row

/-- What a later state keeps of an earlier one. -/
structure Extends (s s' : State) : Prop where
  row : ∀ {id row}, s.rows.find? id = some row →
    ∃ row', s'.rows.find? id = some row' ∧ SameEvent row row'
  published : ∀ {id row}, s.rows.find? id = some row → row.status = .PUBLISHED →
    s'.rows.find? id = some row
  deliveries : s.deliveries ⊆ s'.deliveries

/-- A state extends another with the same table that has received no more messages. -/
theorem Extends.of_rows_eq (h : s'.rows = s.rows) (hd : s.deliveries ⊆ s'.deliveries) :
    Extends s s' where
  row := fun hrow ↦ ⟨_, h ▸ hrow, .refl _⟩
  published := fun hrow _ ↦ h ▸ hrow
  deliveries := hd

/-- Every state extends itself. -/
theorem Extends.refl (s : State) : Extends s s := .of_rows_eq rfl (List.Subset.refl _)

/-- Extension is transitive. -/
theorem Extends.trans (h : Extends s s') (h' : Extends s' s'') : Extends s s'' where
  row := by
    intro id row hrow
    obtain ⟨row', hrow', hsame⟩ := h.row hrow
    obtain ⟨row'', hrow'', hsame'⟩ := h'.row hrow'
    exact ⟨row'', hrow'', hsame.trans hsame'⟩
  published := fun hrow hp ↦ h'.published (h.published hrow hp) hp
  deliveries := List.Subset.trans h.deliveries h'.deliveries

/-- Versions of one row are acknowledged together. -/
theorem Acknowledged.congr {e e' : OutboxEvent} (h : s.Acknowledged e) (hsame : SameEvent e e') :
    s.Acknowledged e' := by
  obtain ⟨d, hd, hack, hmessage⟩ := h
  exact ⟨d, hd, hack, hmessage.trans hsame.message⟩

/-- What Kafka has acknowledged stays acknowledged. -/
theorem Acknowledged.extends {e : OutboxEvent} (h : s.Acknowledged e) (he : Extends s s') :
    s'.Acknowledged e := by
  obtain ⟨d, hd, hack⟩ := h
  exact ⟨d, he.deliveries hd, hack⟩

/-- A version of a row stays one. -/
theorem Knows.extends {e : OutboxEvent} (h : s.Knows e) (he : Extends s s') : s'.Knows e := by
  obtain ⟨row, hrow, hsame⟩ := h
  obtain ⟨row', hrow', hsame'⟩ := he.row hrow
  exact ⟨row', hrow', hsame.trans hsame'⟩

/-- A message that Kafka receives extends the state. -/
theorem extends_deliver (s : State) (e : OutboxEvent) (delivered acknowledged : Bool) :
    Extends s (s.deliver e delivered acknowledged) := by
  unfold deliver
  split
  · exact .of_rows_eq rfl (List.subset_append_left _ _)
  · exact .refl s

/-- A send that its process leaves extends the state. -/
theorem extends_interrupt (s : State) (phase : Phase) (delivered : Bool) :
    Extends s (s.interrupt phase delivered) := by
  unfold interrupt
  split
  · exact s.extends_deliver _ delivered false
  · exact .refl s

/-- Going on to another phase extends the state. -/
theorem extends_setPhase (s : State) (p : Nat) (x : Publisher) (phase : Phase) :
    Extends s (s.setPhase p x phase) := .of_rows_eq rfl (List.Subset.refl _)

/-- An executed call extends the state. -/
theorem extends_executeStatement {statement : Statement} {chosen : List String}
    (h : s.executeStatement statement chosen = some s') : Extends s s' := by
  unfold executeStatement at h
  split at h
  · next hexecutable =>
    cases h
    refine ⟨fun {id row} hrow ↦ ?_, fun {id row} hrow hp ↦ ?_, List.Subset.refl _⟩
    · by_cases hw : statement.writes chosen row = true
      · have hwritten := statement.find?_rows chosen s.rows id
        rw [hrow, Option.map_some, if_pos hw] at hwritten
        exact ⟨statement.written row, hwritten, statement.sameEvent_written row⟩
      · exact ⟨row, by rw [Statement.find?_rows, hrow, Option.map_some, if_neg hw], .refl row⟩
    · have hw : ¬ statement.writes chosen row = true :=
        fun hw ↦ Statement.live_of_writes hexecutable hrow hw hp
      rw [Statement.find?_rows, hrow, Option.map_some, if_neg hw]
  · cases h

/-- An answer returns events of the table. -/
theorem knows_of_mem_taken {statement : Statement} {chosen : List String} {e : OutboxEvent}
    (h : s.executeStatement statement chosen = some s')
    (he : e ∈ statement.taken chosen s.rows) : s'.Knows e := by
  unfold executeStatement at h
  split at h
  · cases h
    exact ⟨e, Statement.find?_of_mem_taken he, .refl e⟩
  · cases h

/-- A new event extends the state. -/
theorem extends_insert {e : OutboxEvent} (hrows : s'.rows = s.rows.insert e)
    (hd : s'.deliveries = s.deliveries) : Extends s s' where
  row := fun hrow ↦ ⟨_, hrows ▸ Table.find?_insert_of_some hrow, .refl _⟩
  published := fun hrow _ ↦ hrows ▸ Table.find?_insert_of_some hrow
  deliveries := hd ▸ List.Subset.refl _

end State

/-! ### Calls and phases -/

/-- Executing the call later keeps the invariant: it writes a due time within a minute of the
reading behind it, or marks an event whose send was acknowledged. -/
def Statement.Fair (s : State) : Statement → Prop
  | .claim input => input.leaseExpiresAt ≤ input.now + 60000
  | .mark input _ => ∃ row, s.rows.find? input.id = some row ∧ s.Acknowledged row
  | .reschedule input now => input.nextAttemptAt ≤ now + 60000

/-- The events that a publisher has claimed and not yet dealt with. -/
def Phase.events : Phase → List OutboxEvent
  | .batch events => events
  | .sending event rest => event :: rest
  | .marking event rest _ => event :: rest
  | .rescheduling event rest _ _ => event :: rest
  | _ => []

/-- A publisher holds events of the table and awaits a fair call. -/
structure Phase.Fair (s : State) (phase : Phase) : Prop where
  known : ∀ e ∈ phase.events, s.Knows e
  awaited : ∀ {statement}, phase.awaited = some statement → statement.Fair s

section

variable {s s' : State} {x : Publisher} {phase : Phase}

/-- A fair call stays fair. -/
theorem Statement.Fair.extends {statement : Statement} (h : statement.Fair s)
    (he : s.Extends s') : statement.Fair s' := by
  cases statement with
  | claim input => exact h
  | reschedule input now => exact h
  | mark input publishedAt =>
    obtain ⟨row, hrow, hack⟩ := h
    obtain ⟨row', hrow', hsame⟩ := he.row hrow
    exact ⟨row', hrow', (hack.extends he).congr hsame⟩

/-- A publisher with a fair phase keeps it. -/
theorem Phase.Fair.extends (h : phase.Fair s) (he : s.Extends s') : phase.Fair s' :=
  ⟨fun e hmem ↦ (h.known e hmem).extends he, fun hst ↦ (h.awaited hst).extends he⟩

/-- A publisher that awaits no call is fair when it knows its events. -/
theorem Phase.fair_of_awaited_eq_none (h : phase.awaited = none)
    (hknown : ∀ e ∈ phase.events, s.Knows e) : phase.Fair s :=
  ⟨hknown, fun hst ↦ by simp [h] at hst⟩

/-- A reschedule is always fair. -/
theorem Phase.fair_rescheduling {event : OutboxEvent} {rest : List OutboxEvent}
    (hknown : ∀ e ∈ event :: rest, s.Knows e) (error : String) (now : Date) :
    (Phase.rescheduling event rest error now).Fair s := by
  refine ⟨hknown, fun hst ↦ ?_⟩
  cases hst
  have hdelay : (retryDelayMs event.attempts : Int) ≤ 60000 :=
    Int.ofNat_le.mpr (retryDelayMs_le event.attempts)
  exact Int.add_le_add_left hdelay now

/-- Marking an event whose send was acknowledged is fair. -/
theorem Phase.fair_marking {event : OutboxEvent} {rest : List OutboxEvent}
    (hknown : ∀ e ∈ event :: rest, s.Knows e) (hack : s.Acknowledged event)
    (publishedAt : Date) : (Phase.marking event rest publishedAt).Fair s := by
  refine ⟨hknown, fun hst ↦ ?_⟩
  cases hst
  obtain ⟨row, hrow, hsame⟩ := hknown event List.mem_cons_self
  exact ⟨row, hrow, hack.congr hsame⟩

/-- A publisher after its batch holds nothing. -/
theorem Publisher.fair_afterBatch (s : State) (x : Publisher) : x.afterBatch.Fair s := by
  unfold afterBatch
  split <;> exact Phase.fair_of_awaited_eq_none rfl (by simp [Phase.events])

/-- What a publisher does on its own keeps its phase fair. -/
theorem Publisher.fair_proceed {now : Date} (h : x.phase.Fair s)
    (hp : x.proceed now = some phase) : phase.Fair s := by
  have hknown := h.known
  unfold proceed at hp
  split at hp
  · split at hp <;> cases hp
    · exact Phase.fair_of_awaited_eq_none rfl (by simp [Phase.events])
    · refine ⟨by simp [Phase.events], fun hst ↦ ?_⟩
      cases hst
      exact Int.add_le_add_left (show (30000 : Int) ≤ 60000 by decide) now
  · next event rest hphase =>
    split at hp <;> cases hp
    · exact x.fair_afterBatch s
    · rw [hphase] at hknown
      exact Phase.fair_of_awaited_eq_none rfl hknown
  · cases hp
    exact x.fair_afterBatch s
  · cases hp
    exact Phase.fair_of_awaited_eq_none rfl (by simp [Phase.events])
  · cases hp

/-- A publisher that gets its answer holds known events. -/
theorem Publisher.fair_answered {taken : List OutboxEvent} (h : x.phase.Fair s)
    (htaken : ∀ e ∈ taken, s.Knows e) : (x.answered taken).Fair s := by
  have hknown := h.known
  unfold answered
  split
  · exact Phase.fair_of_awaited_eq_none rfl htaken
  · next event rest _ hphase =>
    rw [hphase] at hknown
    exact Phase.fair_of_awaited_eq_none rfl fun e he ↦ hknown e (List.mem_cons_of_mem _ he)
  · next event rest _ _ hphase =>
    rw [hphase] at hknown
    exact Phase.fair_of_awaited_eq_none rfl fun e he ↦ hknown e (List.mem_cons_of_mem _ he)
  · exact h

/-- A publisher whose call throws goes on fairly. -/
theorem Publisher.fair_rejected (h : x.phase.Fair s) (error : String) (now : Date) :
    (x.rejected error now).Fair s := by
  have hknown := h.known
  unfold rejected
  split
  · next event rest _ hphase =>
    rw [hphase] at hknown
    exact Phase.fair_rescheduling hknown error now
  · exact x.fair_afterBatch s
  · exact x.fair_afterBatch s
  · exact h

end

/-! ### The invariant -/

/-- No event is lost, none is published without an acknowledged send, and nothing else is sent. -/
structure State.Safe (s : State) : Prop where
  acknowledged : ∀ {id row}, s.rows.find? id = some row → row.status = .PUBLISHED →
    s.Acknowledged row
  scheduled : ∀ {id row}, s.rows.find? id = some row → row.status ≠ .PUBLISHED →
    row.nextAttemptAt ≤ s.lastWrite id + 60000
  sent : ∀ d ∈ s.deliveries, ∃ e, s.Knows e ∧ d.message = message e
  phases : ∀ {p x}, s.publisher p = some x → x.phase.Fair s
  late : ∀ statement ∈ s.late, statement.Fair s

namespace State.Safe

variable {s s' : State}

/-- Nothing is wrong with an empty table. -/
theorem initial (clock : Nat → Date) : (State.initial clock).Safe where
  acknowledged := fun hrow ↦ nomatch hrow
  scheduled := fun hrow ↦ nomatch hrow
  sent := fun _ hd ↦ nomatch hd
  phases := fun hx ↦ nomatch hx
  late := fun _ h ↦ nomatch h

/-- A process may go to any fair phase, or end. -/
theorem setPublisher (h : s.Safe) (p : Nat) {x : Option Publisher}
    (hx : ∀ {y}, x = some y → y.phase.Fair s) :
    State.Safe { s with publisher := Function.update s.publisher p x } where
  acknowledged := h.acknowledged
  scheduled := h.scheduled
  sent := h.sent
  phases := by
    intro q y hq
    by_cases hqp : q = p
    · subst hqp
      have hy : x = some y := by simpa using hq
      exact (hx hy).extends (.of_rows_eq rfl (List.Subset.refl _))
    · have hy : s.publisher q = some y := by simpa [hqp] using hq
      exact (h.phases hy).extends (.of_rows_eq rfl (List.Subset.refl _))
  late := h.late

/-- What Kafka has received stays a version of a row. -/
theorem sent_extends (h : s.Safe) (he : s.Extends s') :
    ∀ d ∈ s.deliveries, ∃ e, s'.Knows e ∧ d.message = message e := by
  intro d hd
  obtain ⟨e, hknown, hmessage⟩ := h.sent d hd
  exact ⟨e, hknown.extends he, hmessage⟩

/-- The message of a row may reach Kafka at any time. -/
theorem deliver (h : s.Safe) {e : OutboxEvent} (hknown : s.Knows e)
    (delivered acknowledged : Bool) : (s.deliver e delivered acknowledged).Safe := by
  have he := s.extends_deliver e delivered acknowledged
  unfold State.deliver at he ⊢
  split
  · next hd =>
    rw [if_pos hd] at he
    refine ⟨fun hrow hp ↦ (h.acknowledged hrow hp).extends he, h.scheduled, ?_,
      fun hx ↦ (h.phases hx).extends he, fun st hst ↦ (h.late st hst).extends he⟩
    intro d hmem
    rcases List.mem_append.mp hmem with hmem | hmem
    · exact h.sent_extends he d hmem
    · obtain rfl := List.mem_singleton.mp hmem
      exact ⟨e, hknown.extends he, rfl⟩
  · exact h

/-- A process may end while it sends. -/
theorem interrupt (h : s.Safe) {phase : Phase} (hphase : phase.Fair s) (delivered : Bool) :
    (s.interrupt phase delivered).Safe := by
  unfold State.interrupt
  split
  · exact h.deliver (hphase.known _ List.mem_cons_self) delivered false
  · exact h

/-- A fair call may be given up. -/
theorem giveUp (h : s.Safe) {phase : Phase} (hphase : phase.Fair s) : (s.giveUp phase).Safe where
  acknowledged := h.acknowledged
  scheduled := h.scheduled
  sent := h.sent
  phases := fun hx ↦ (h.phases hx).extends (.of_rows_eq rfl (List.Subset.refl _))
  late := by
    intro statement hst
    rcases List.mem_append.mp hst with hst | hst
    · exact h.late statement hst
    · exact hphase.awaited (Option.mem_toList.mp hst)

/-- A fair call may be executed at any time. -/
theorem executeStatement (h : s.Safe) {statement : Statement} {chosen : List String}
    (hfair : statement.Fair s) (hs : s.executeStatement statement chosen = some s') :
    s'.Safe := by
  have he := extends_executeStatement hs
  unfold State.executeStatement at hs
  split at hs
  · cases hs
    refine ⟨?acknowledged, ?scheduled, h.sent_extends he, fun hx ↦ (h.phases hx).extends he,
      fun st hst ↦ (h.late st hst).extends he⟩
    case acknowledged =>
      intro id row' hrow' hp
      simp only [Statement.find?_rows, Option.map_eq_some_iff] at hrow'
      obtain ⟨row, hrow, rfl⟩ := hrow'
      split at hp
      · next hw =>
        -- only marking publishes a row
        rw [if_pos hw]
        cases statement with
        | claim input => cases hp
        | reschedule input now => cases hp
        | mark input publishedAt =>
          have hheld : Held input row := of_decide_eq_true hw
          obtain ⟨marked, hmarked, hack⟩ := hfair
          rw [← hheld.1, Table.key_of_find? hrow, hrow] at hmarked
          cases hmarked
          exact (hack.extends he).congr (Statement.sameEvent_written _ row)
      · next hw =>
        rw [if_neg hw]
        exact (h.acknowledged hrow hp).extends he
    case scheduled =>
      intro id row' hrow' hp
      simp only [Statement.find?_rows, Option.map_eq_some_iff] at hrow'
      obtain ⟨row, hrow, rfl⟩ := hrow'
      simp only [hrow, Option.any_some]
      split at hp
      · next hw =>
        rw [if_pos hw, if_pos hw]
        cases statement with
        | claim input => exact hfair
        | reschedule input now => exact hfair
        | mark input publishedAt => exact absurd rfl hp
      · next hw =>
        rw [if_neg hw, if_neg hw]
        exact h.scheduled hrow hp
  · cases hs

/-- A new event is due at once. -/
theorem create (h : s.Safe) {data : OutboxEventData} {id : String} {now : Date}
    (hfresh : s.rows.find? id = none) :
    State.Safe { s with
      rows := s.rows.insert (data.row id now)
      lastWrite := Function.update s.lastWrite id now } := by
  have hfind := Table.find?_insert (t := s.rows) (r := data.row id now) hfresh
  have he : s.Extends { s with
      rows := s.rows.insert (data.row id now)
      lastWrite := Function.update s.lastWrite id now } := extends_insert rfl rfl
  refine ⟨?acknowledged, ?scheduled, h.sent_extends he, fun hx ↦ (h.phases hx).extends he,
    fun st hst ↦ (h.late st hst).extends he⟩
  case acknowledged =>
    intro k row hrow hp
    rw [hfind] at hrow
    split at hrow
    · cases hrow
      cases hp
    · exact (h.acknowledged hrow hp).extends he
  case scheduled =>
    intro k row hrow hp
    rw [hfind] at hrow
    split at hrow
    · next hk =>
      cases hrow
      subst hk
      have hupdate : Function.update s.lastWrite id now (data.row id now).id = now :=
        Function.update_self id now s.lastWrite
      change now ≤ Function.update s.lastWrite id now (data.row id now).id + 60000
      rw [hupdate]
      exact Int.le_add_of_nonneg_right (show (0 : Int) ≤ 60000 by decide)
    · next hk =>
      have hne : k ≠ id := fun hid ↦ hk hid.symm
      simpa [hne] using h.scheduled hrow hp

end State.Safe

/-! ### Steps -/

/-- Every step keeps the invariant and extends the state. -/
theorem safe_step {s s' : State} {a : Action} (hstep : step s a = some s') (h : s.Safe) :
    s'.Safe ∧ s.Extends s' := by
  cases step_kind hstep with
  | create hfresh => exact ⟨h.create hfresh, State.extends_insert rfl rfl⟩
  | start hnone =>
    refine ⟨h.setPublisher _ fun hy ↦ ?_, .of_rows_eq rfl (List.Subset.refl _)⟩
    cases hy
    exact Phase.fair_of_awaited_eq_none rfl (by simp [Phase.events])
  | tick hle =>
    exact ⟨⟨h.acknowledged, h.scheduled, h.sent,
      fun hx ↦ (h.phases hx).extends (.of_rows_eq rfl (List.Subset.refl _)), h.late⟩,
      .of_rows_eq rfl (List.Subset.refl _)⟩
  | shutdown hx =>
    have hfair := h.phases hx
    refine ⟨h.setPublisher _ fun hy ↦ ?_, .of_rows_eq rfl (List.Subset.refl _)⟩
    cases hy
    exact hfair
  | @crash p x delivered hx =>
    have he := s.extends_interrupt x.phase delivered
    have hfair := h.phases hx
    refine ⟨((h.interrupt hfair delivered).giveUp (hfair.extends he)).setPublisher p fun hy ↦ ?_,
      he.trans (.of_rows_eq rfl (List.Subset.refl _))⟩
    cases hy
  | @proceed p x phase hx hphase =>
    refine ⟨h.setPublisher p fun hy ↦ ?_, s.extends_setPhase p x phase⟩
    cases hy
    exact Publisher.fair_proceed (h.phases hx) hphase
  | @acknowledge p x event rest hx hphase =>
    have hfair := h.phases hx
    rw [hphase] at hfair
    have he := s.extends_deliver event true true
    have hknown := hfair.known event List.mem_cons_self
    have hack : (s.deliver event true true).Acknowledged event :=
      ⟨_, List.mem_append_right _ (List.mem_singleton.mpr rfl), rfl, rfl⟩
    refine ⟨(h.deliver hknown true true).setPublisher p fun hy ↦ ?_,
      he.trans (State.extends_setPhase _ p x _)⟩
    cases hy
    exact Phase.fair_marking (fun e hmem ↦ (hfair.known e hmem).extends he) hack _
  | @sendFails p x event rest delivered error hx hphase =>
    have hfair := h.phases hx
    rw [hphase] at hfair
    have he := s.extends_deliver event delivered false
    have hknown := hfair.known event List.mem_cons_self
    refine ⟨(h.deliver hknown delivered false).setPublisher p fun hy ↦ ?_,
      he.trans (State.extends_setPhase _ p x _)⟩
    cases hy
    exact Phase.fair_rescheduling (fun e hmem ↦ (hfair.known e hmem).extends he) _ _
  | @answer p x statement chosen t hx hawaited ht =>
    have he := State.extends_executeStatement ht
    have hfair := h.phases hx
    refine ⟨(h.executeStatement (hfair.awaited hawaited) ht).setPublisher p fun hy ↦ ?_,
      he.trans (State.extends_setPhase _ p x _)⟩
    cases hy
    exact Publisher.fair_answered (hfair.extends he) fun e ↦ State.knows_of_mem_taken ht
  | @reject p x statement error hx hawaited =>
    have hfair := h.phases hx
    refine ⟨(h.giveUp hfair).setPublisher p fun hy ↦ ?_, .of_rows_eq rfl (List.Subset.refl _)⟩
    cases hy
    exact (Publisher.fair_rejected hfair error (s.clock p)).extends
      (.of_rows_eq rfl (List.Subset.refl _))
  | late hk ht =>
    have he := State.extends_executeStatement ht
    have hsafe := h.executeStatement (h.late _ (List.mem_of_getElem? hk)) ht
    exact ⟨⟨hsafe.acknowledged, hsafe.scheduled, hsafe.sent,
      fun hx ↦ (hsafe.phases hx).extends (.of_rows_eq rfl (List.Subset.refl _)),
      fun st hst ↦ hsafe.late st (List.mem_of_mem_eraseIdx hst)⟩,
      he.trans (.of_rows_eq rfl (List.Subset.refl _))⟩

end Banking.Outbox
