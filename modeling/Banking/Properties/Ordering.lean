import Banking.Outbox.Steps
import Banking.Properties.Outbox

/-!
# The order in which events are published

The publisher sends a batch in the order in which the claim returned it, and nothing else orders
the events of an account. An event is overtaken when a claim returns a later event before it or
without it, or when its send fails while the later event waits in the batch. In the runs where
neither happens the events are published in order.
-/

namespace Banking.Outbox

open Js (Date)
open Relational (Table)

/-! ### Order -/

/-- `first` stands before the first occurrence of `second`, if `second` occurs. -/
def Guarded (first second : String) (ids : List String) : Prop :=
  second ∈ ids → first ∈ ids.takeWhile (· ≠ second)

instance (first second : String) (ids : List String) : Decidable (Guarded first second ids) :=
  inferInstanceAs (Decidable (_ → _))

/-- The event that a message carries. -/
def KafkaMessage.eventId (m : KafkaMessage) : Option String :=
  match m.value with
  | .obj fields => (fields.lookup "eventId").bind fun value ↦ Zod.string (some value)
  | _ => none

namespace State

/-- The events whose messages have reached Kafka, in the order of the messages. -/
def deliveredIds (s : State) : List String := s.deliveries.filterMap (·.message.eventId)

/-- The events whose sends were acknowledged, in the order of the acknowledgements. -/
def acknowledgedIds (s : State) : List String :=
  (s.deliveries.filter (·.acknowledged)).filterMap (·.message.eventId)

/-- Kafka has acknowledged `first` before `second`, and has received it before `second`. -/
structure InOrder (s : State) (first second : String) : Prop where
  acknowledged : Guarded first second s.acknowledgedIds
  delivered : Guarded first second s.deliveredIds

end State

/-- The events that a publisher is still going to send. -/
def Phase.waiting : Phase → List OutboxEvent
  | .batch events => events
  | .sending event rest => event :: rest
  | .marking _ rest _ => rest
  | .rescheduling _ rest _ _ => rest
  | _ => []

/-- Until a send of `first` is acknowledged, no claim answers with `second` and without `first`
before it, and no send of `first` fails while `second` waits. -/
def keepsOrder (first second : String) (s : State) (a : Action) : Bool :=
  decide (first ∈ s.acknowledgedIds) ||
  match a with
  | .answer p chosen =>
    match (s.publisher p).map Publisher.phase with
    | some (.claiming _) => decide (Guarded first second chosen)
    | _ => true
  | .sendFails p _ _ =>
    match (s.publisher p).map Publisher.phase with
    | some (.sending event rest) =>
      !(event.id == first && (rest.map OutboxEvent.id).contains second)
    | _ => true
  | _ => true

/-- Finitely many steps, each of which passes the check. -/
abbrev RunsUnder (check : State → Action → Bool) : State → State → Prop :=
  Relational.StepsUnder step (fun s a ↦ check s a = true)

/-! ### Lists of events -/

section

variable {first second id : String} {ids : List String}

/-- The head of a guarded list is not `second`, and the rest is guarded unless the head is
`first`. -/
theorem guarded_cons :
    Guarded first second (id :: ids) ↔ id ≠ second ∧ (id = first ∨ Guarded first second ids) := by
  unfold Guarded
  by_cases hid : id = second
  · simp [hid]
  · have hne : second ≠ id := Ne.symm hid
    simp only [List.mem_cons, hne, false_or, List.takeWhile_cons, hid, ne_eq, not_false_eq_true,
      decide_true, if_true, true_and, eq_comm (a := id)]
    constructor
    · intro h
      by_cases hfirst : first = id
      · exact .inl hfirst
      · exact .inr fun hmem ↦ (h hmem).resolve_left hfirst
    · rintro (rfl | h) hmem
      · exact .inl rfl
      · exact .inr (h hmem)

/-- A list is guarded if `second` does not occur in it. -/
theorem guarded_of_not_mem (h : second ∉ ids) : Guarded first second ids :=
  fun hmem ↦ absurd hmem h

/-- `second` may be added behind `first`, and any other event anywhere. -/
theorem guarded_append (h : Guarded first second ids) (hid : id = second → first ∈ ids) :
    Guarded first second (ids ++ [id]) := by
  induction ids with
  | nil =>
    refine guarded_of_not_mem fun hmem ↦ ?_
    exact absurd (hid (List.mem_singleton.mp hmem).symm) List.not_mem_nil
  | cons x ids ih =>
    obtain ⟨hx, hrest⟩ := guarded_cons.mp h
    refine guarded_cons.mpr ⟨hx, ?_⟩
    by_cases hfirst : x = first
    · exact .inl hfirst
    · refine .inr (ih (hrest.resolve_left hfirst) fun he ↦ ?_)
      exact (List.mem_cons.mp (hid he)).resolve_left (Ne.symm hfirst)

end

/-! ### What a step makes of the order -/

section

variable {s s' : State} {a : Action} {p : Nat} {x : Publisher} {first second : String}

/-- The publisher sends nothing before its turn: what it is going to send is guarded, unless
`first` has been acknowledged. -/
structure State.Ordered (s : State) (first second : String) : Prop where
  inOrder : s.InOrder first second
  waiting : ∀ {p x}, s.publisher p = some x →
    first ∈ s.acknowledgedIds ∨ Guarded first second (x.phase.waiting.map OutboxEvent.id)

/-- A message carries the event it was made from. -/
theorem eventId_message (event : OutboxEvent) : (message event).eventId = some event.id := rfl

/-- A message that reaches Kafka is the last one. -/
theorem deliveredIds_deliver (s : State) (event : OutboxEvent) (acknowledged : Bool) :
    (s.deliver event true acknowledged).deliveredIds = s.deliveredIds ++ [event.id] := by
  simp only [State.deliver, if_true, State.deliveredIds, List.filterMap_append]
  rfl

/-- An acknowledgement is the last one. -/
theorem acknowledgedIds_deliver (s : State) (event : OutboxEvent) (acknowledged : Bool) :
    (s.deliver event true acknowledged).acknowledgedIds =
      s.acknowledgedIds ++ if acknowledged then [event.id] else [] := by
  cases acknowledged <;>
    simp [State.deliver, State.acknowledgedIds, eventId_message]

/-- What was acknowledged has reached Kafka. -/
theorem acknowledgedIds_subset (s : State) : s.acknowledgedIds ⊆ s.deliveredIds := by
  intro id hid
  obtain ⟨d, hd, hevent⟩ := List.mem_filterMap.mp hid
  exact List.mem_filterMap.mpr ⟨d, List.mem_of_mem_filter hd, hevent⟩

/-- A message may reach Kafka, acknowledged or not, when it is not `second` before `first`. -/
theorem State.InOrder.deliver (h : s.InOrder first second) {event : OutboxEvent}
    (hevent : event.id = second → first ∈ s.acknowledgedIds) (delivered acknowledged : Bool) :
    (s.deliver event delivered acknowledged).InOrder first second := by
  cases delivered with
  | false => exact h
  | true =>
    constructor
    · rw [acknowledgedIds_deliver]
      cases acknowledged with
      | false => simpa using h.acknowledged
      | true => exact guarded_append h.acknowledged hevent
    · rw [deliveredIds_deliver]
      exact guarded_append h.delivered fun he ↦ acknowledgedIds_subset s (hevent he)

/-- Acknowledgements stay. -/
theorem acknowledgedIds_subset_deliver (s : State) (event : OutboxEvent)
    (delivered acknowledged : Bool) :
    s.acknowledgedIds ⊆ (s.deliver event delivered acknowledged).acknowledgedIds := by
  cases delivered with
  | false => exact List.Subset.refl _
  | true =>
    rw [acknowledgedIds_deliver]
    exact List.subset_append_left _ _

/-- A claim returns the chosen rows in the chosen order. -/
theorem map_id_taken {input : ClaimPendingOutboxEventsInput} {chosen : List String} {rows : Rows}
    (h : isChoice input rows chosen = true) :
    ((Statement.claim input).taken chosen rows).map OutboxEvent.id = chosen := by
  simp only [isChoice, Bool.and_eq_true, List.all_eq_true] at h
  have hfound : ∀ id ∈ chosen, ∃ row,
      (claimPendingOutboxEvents input chosen rows).1.find? id = some row := by
    intro id hid
    obtain ⟨row, hrow, -⟩ := Option.any_eq_true _ _ |>.mp (h.1.2 id hid)
    exact ⟨_, by rw [find?_claim, hrow]; rfl⟩
  change (chosen.filterMap _).map OutboxEvent.id = chosen
  rw [List.map_filterMap]
  refine (List.filterMap_congr fun id hid ↦ ?_).trans (List.filterMap_some (l := chosen))
  obtain ⟨row, hrow⟩ := hfound id hid
  have hkey : row.id = id := Table.key_of_find? hrow
  exact (congrArg (Option.map OutboxEvent.id) hrow).trans (congrArg some hkey)

/-- What a publisher does on its own keeps what it is going to send guarded. -/
theorem Publisher.guarded_proceed {now : Date} {phase : Phase}
    (h : Guarded first second (x.phase.waiting.map OutboxEvent.id))
    (hp : x.proceed now = some phase) :
    Guarded first second (phase.waiting.map OutboxEvent.id) := by
  have hafter : Guarded first second (x.afterBatch.waiting.map OutboxEvent.id) := by
    unfold afterBatch
    split <;> exact guarded_of_not_mem List.not_mem_nil
  unfold proceed at hp
  split at hp
  · split at hp <;> cases hp <;> exact guarded_of_not_mem List.not_mem_nil
  · next event rest hphase =>
    rw [hphase] at h
    split at hp <;> cases hp
    · exact hafter
    · exact h
  · cases hp
    exact hafter
  · cases hp
    exact guarded_of_not_mem List.not_mem_nil
  · cases hp

/-- A publisher whose call throws goes on with its batch, or leaves it. -/
theorem Publisher.guarded_rejected (h : Guarded first second (x.phase.waiting.map OutboxEvent.id))
    (error : String) (now : Date) :
    Guarded first second ((x.rejected error now).waiting.map OutboxEvent.id) := by
  have hafter : Guarded first second (x.afterBatch.waiting.map OutboxEvent.id) := by
    unfold afterBatch
    split <;> exact guarded_of_not_mem List.not_mem_nil
  unfold rejected
  split
  · next event rest _ hphase =>
    rw [hphase] at h
    exact h
  · exact hafter
  · exact hafter
  · exact h

/-- A process may go to any guarded phase, or end, when no acknowledgement is lost. -/
private theorem State.Ordered.setPublisher (h : s.Ordered first second)
    (hin : s'.InOrder first second) (hsub : s.acknowledgedIds ⊆ s'.acknowledgedIds)
    {y : Option Publisher} (hpublisher : s'.publisher = Function.update s.publisher p y)
    (hy : ∀ {z}, y = some z → first ∈ s'.acknowledgedIds ∨
      Guarded first second (z.phase.waiting.map OutboxEvent.id)) : s'.Ordered first second where
  inOrder := hin
  waiting := by
    intro q z hq
    rw [hpublisher] at hq
    by_cases hqp : q = p
    · subst hqp
      exact hy (by simpa using hq)
    · exact (h.waiting (by simpa [hqp] using hq)).imp_left fun hacked ↦ hsub hacked

/-- A publisher that gets its answer is going to send a guarded list. -/
theorem State.Ordered.answered (h : s.Ordered first second) {statement : Statement}
    {chosen : List String} (hx : s.publisher p = some x)
    (hawaited : x.phase.awaited = some statement)
    (hallow : keepsOrder first second s (.answer p chosen) = true)
    (hexecutable : statement.executable chosen s.rows = true) :
    first ∈ s.acknowledgedIds ∨ Guarded first second
      ((x.answered (statement.taken chosen s.rows)).waiting.map OutboxEvent.id) := by
  rcases h.waiting hx with hacked | hguarded
  · exact .inl hacked
  unfold Publisher.answered
  split
  · next input hphase =>
    rw [hphase] at hawaited
    cases hawaited
    simp only [keepsOrder, hx, Option.map_some, hphase, Bool.or_eq_true, decide_eq_true_eq]
      at hallow
    exact hallow.imp_right fun hchosen ↦ (map_id_taken hexecutable).symm ▸ hchosen
  · next event rest _ hphase =>
    rw [hphase] at hguarded
    exact .inr hguarded
  · next event rest _ _ hphase =>
    rw [hphase] at hguarded
    exact .inr hguarded
  · exact .inr hguarded

/-- The event that is being sent is not `second` before `first`. -/
theorem State.Ordered.sending (h : s.Ordered first second) (hx : s.publisher p = some x)
    {event : OutboxEvent} {rest : List OutboxEvent} (hphase : x.phase = .sending event rest) :
    event.id = second → first ∈ s.acknowledgedIds := by
  intro hid
  rcases h.waiting hx with hacked | hguarded
  · exact hacked
  · rw [hphase] at hguarded
    exact absurd hid (guarded_cons.mp hguarded).1

/-- Every step that passes the check keeps the order. -/
theorem ordered_step (hallow : keepsOrder first second s a = true) (hstep : step s a = some s')
    (h : s.Ordered first second) : s'.Ordered first second := by
  cases step_kind hstep with
  | create hfresh => exact ⟨⟨h.inOrder.acknowledged, h.inOrder.delivered⟩, h.waiting⟩
  | tick hle => exact ⟨⟨h.inOrder.acknowledged, h.inOrder.delivered⟩, h.waiting⟩
  | @start p hnone =>
    refine h.setPublisher (p := p) ⟨h.inOrder.acknowledged, h.inOrder.delivered⟩
      (List.Subset.refl _) rfl fun hz ↦ ?_
    cases hz
    exact .inr (guarded_of_not_mem List.not_mem_nil)
  | @shutdown p x hx =>
    refine h.setPublisher (p := p) ⟨h.inOrder.acknowledged, h.inOrder.delivered⟩
      (List.Subset.refl _) rfl fun hz ↦ ?_
    cases hz
    exact (h.waiting hx : _ ∨ _)
  | @crash p x delivered hx =>
    obtain ⟨-, -, hpublisher, -⟩ := interrupt_eq s x.phase delivered
    -- a send under way may still reach Kafka, not acknowledged
    have hin : (s.interrupt x.phase delivered).InOrder first second ∧
        s.acknowledgedIds ⊆ (s.interrupt x.phase delivered).acknowledgedIds := by
      unfold State.interrupt
      split
      · next event rest hphase =>
        exact ⟨h.inOrder.deliver (h.sending hx hphase) delivered false,
          acknowledgedIds_subset_deliver s event delivered false⟩
      · exact ⟨h.inOrder, List.Subset.refl _⟩
    refine h.setPublisher (p := p) ⟨hin.1.acknowledged, hin.1.delivered⟩ hin.2
      (by rw [← hpublisher]; rfl) fun hz ↦ ?_
    cases hz
  | @proceed p x phase hx hphase =>
    refine h.setPublisher (p := p) ⟨h.inOrder.acknowledged, h.inOrder.delivered⟩
      (List.Subset.refl _) rfl fun hz ↦ ?_
    cases hz
    exact (h.waiting hx).imp_right fun hguarded ↦ Publisher.guarded_proceed hguarded hphase
  | @acknowledge p x event rest hx hphase =>
    obtain ⟨-, -, hpublisher, -⟩ := deliver_eq s event true true
    have hin := h.inOrder.deliver (h.sending hx hphase) true true
    refine h.setPublisher (p := p) ⟨hin.acknowledged, hin.delivered⟩
      (acknowledgedIds_subset_deliver s event true true) (by rw [← hpublisher]; rfl) fun hz ↦ ?_
    cases hz
    change first ∈ (s.deliver event true true).acknowledgedIds ∨
      Guarded first second (rest.map OutboxEvent.id)
    rw [acknowledgedIds_deliver, if_pos rfl]
    rcases h.waiting hx with hacked | hguarded
    · exact .inl (List.mem_append_left _ hacked)
    · rw [hphase] at hguarded
      rcases (guarded_cons.mp hguarded).2 with hfirst | hrest
      · exact .inl (List.mem_append_right _ (List.mem_singleton.mpr hfirst.symm))
      · exact .inr hrest
  | @sendFails p x event rest delivered error hx hphase =>
    obtain ⟨-, -, hpublisher, -⟩ := deliver_eq s event delivered false
    have hsub := acknowledgedIds_subset_deliver s event delivered false
    have hin := h.inOrder.deliver (h.sending hx hphase) delivered false
    refine h.setPublisher (p := p) ⟨hin.acknowledged, hin.delivered⟩ hsub
      (by rw [← hpublisher]; rfl) fun hz ↦ ?_
    cases hz
    rcases h.waiting hx with hacked | hguarded
    · exact .inl (hsub hacked)
    · rw [hphase] at hguarded
      simp only [keepsOrder, hx, Option.map_some, hphase, Bool.or_eq_true, decide_eq_true_eq,
        Bool.not_eq_true', Bool.and_eq_false_iff] at hallow
      rcases hallow with hacked | hother | hwaits
      · exact .inl (hsub hacked)
      · exact .inr ((guarded_cons.mp hguarded).2.resolve_left (by simpa using hother))
      · have hnot : second ∉ rest.map OutboxEvent.id := by simpa using hwaits
        exact .inr (guarded_of_not_mem hnot)
  | @answer p x statement chosen t hx hawaited ht =>
    obtain ⟨hexecutable, -, hdeliveries, -, hpublisher, -⟩ := executeStatement_eq ht
    have hacknowledged : t.acknowledgedIds = s.acknowledgedIds := by
      unfold State.acknowledgedIds
      rw [hdeliveries]
    have hdelivered : t.deliveredIds = s.deliveredIds := by
      unfold State.deliveredIds
      rw [hdeliveries]
    refine h.setPublisher (p := p)
      ⟨hacknowledged.symm ▸ h.inOrder.acknowledged, hdelivered.symm ▸ h.inOrder.delivered⟩
      (hacknowledged.symm ▸ List.Subset.refl _) (by rw [← hpublisher]; rfl) fun hz ↦ ?_
    cases hz
    exact hacknowledged.symm ▸ h.answered hx hawaited hallow hexecutable
  | @reject p x statement error hx hawaited =>
    refine h.setPublisher (p := p) ⟨h.inOrder.acknowledged, h.inOrder.delivered⟩
      (List.Subset.refl _) rfl fun hz ↦ ?_
    cases hz
    exact (h.waiting hx).imp_right fun hguarded ↦ Publisher.guarded_rejected hguarded error _
  | @late k statement chosen t hk ht =>
    obtain ⟨-, -, hdeliveries, -, hpublisher, -⟩ := executeStatement_eq ht
    obtain ⟨⟨hacknowledged, hdelivered⟩, hwaiting⟩ := h
    unfold State.acknowledgedIds at hacknowledged hwaiting
    unfold State.deliveredIds at hdelivered
    rw [← hdeliveries] at hacknowledged hdelivered hwaiting
    exact ⟨⟨hacknowledged, hdelivered⟩, fun hx ↦ hwaiting (hpublisher ▸ hx)⟩

/-- In every run in which no claim and no failure lets `second` overtake `first`, they are
published in this order. -/
theorem published_inOrder {clock : Nat → Date}
    (h : RunsUnder (keepsOrder first second) (.initial clock) s) : s.InOrder first second :=
  (Relational.StepsUnder.invariant (P := fun u : State ↦ u.Ordered first second)
    (fun _ _ _ hallow hstep hu ↦ ordered_step hallow hstep hu) h
    ⟨⟨guarded_of_not_mem List.not_mem_nil, guarded_of_not_mem List.not_mem_nil⟩,
      fun hx ↦ nomatch hx⟩).inOrder

end

/-! ### Runs -/

namespace Sample

/-- One publisher, which does not crash. -/
def onePublisher (_ : State) : Action → Bool
  | .start p => p == 0
  | .crash _ _ => false
  | _ => true

/-- The first event of the account is committed. -/
def commitFirst : List Action := [.create data "event-1" 0]

/-- The second event is committed, and a claim returns both, the second one first. -/
def returnedFirst : List Action :=
  [.create data "event-2" 0, .start 0, .proceed 0, .answer 0 ["event-2", "event-1"],
    .proceed 0, .acknowledge 0, .answer 0 [], .proceed 0, .acknowledge 0]

/-- The send of the first event fails while the second waits; the retry comes later. -/
def overtaken : List Action :=
  [.create data "event-2" 0, .start 0, .proceed 0, .answer 0 ["event-1", "event-2"],
    .proceed 0, .sendFails 0 false "timeout", .answer 0 [], .proceed 0, .acknowledge 0,
    .answer 0 [], .proceed 0, .proceed 0, .tick 0 1000, .proceed 0, .answer 0 ["event-1"],
    .proceed 0, .acknowledge 0]

/-- The database fails when the first event, whose send has failed, is rescheduled, which aborts
the batch; the second event is claimed before the lease on the first ends. -/
def aborted : List Action :=
  [.start 0, .proceed 0, .answer 0 ["event-1"], .proceed 0, .sendFails 0 false "timeout",
    .reject 0 "connection lost", .create data "event-2" 0, .proceed 0, .proceed 0,
    .answer 0 ["event-2"], .proceed 0, .acknowledge 0, .answer 0 [], .proceed 0, .tick 0 30000,
    .proceed 0, .proceed 0, .answer 0 ["event-1"], .proceed 0, .acknowledge 0]

/-- The second event is committed and both are published in order, the first at the second
attempt. -/
def retried : List Action :=
  [.create data "event-1" 0, .start 0, .proceed 0, .answer 0 ["event-1"], .proceed 0,
    .sendFails 0 false "timeout", .answer 0 [], .create data "event-2" 1000, .proceed 0,
    .tick 0 1000, .proceed 0, .proceed 0, .answer 0 ["event-1", "event-2"], .proceed 0,
    .acknowledge 0, .answer 0 [], .proceed 0, .acknowledge 0]

end Sample

/-- A retry keeps the order when the second event is claimed after it. -/
theorem published_inOrder_retried : ∃ s,
    Relational.executeUnder step (keepsOrder "event-1" "event-2") (.initial fun _ ↦ 0)
        Sample.retried = some s ∧
      s.acknowledgedIds = ["event-1", "event-2"] ∧ s.InOrder "event-1" "event-2" := by
  have hrun : (Relational.executeUnder step (keepsOrder "event-1" "event-2")
      (.initial fun _ ↦ 0) Sample.retried).map State.acknowledgedIds =
      some ["event-1", "event-2"] := by
    decide +kernel
  obtain ⟨s, hs, hacknowledged⟩ := Option.map_eq_some_iff.mp hrun
  exact ⟨s, hs, hacknowledged, published_inOrder (Relational.stepsUnder_of_execute hs)⟩

/-- The first event of an account is committed before the second is created, and Kafka
acknowledges the second one first. -/
def Overtaken (actions : List Action) : Prop :=
  ∃ s s' row row',
    Relational.executeUnder step Sample.onePublisher (.initial fun _ ↦ 0) Sample.commitFirst =
      some s ∧
    Relational.executeUnder step Sample.onePublisher s actions = some s' ∧
    (s.rows.find? "event-1").isSome = true ∧ (s.rows.find? "event-2").isNone = true ∧
    s'.rows.find? "event-1" = some row ∧ s'.rows.find? "event-2" = some row' ∧
    row.partitionKey = row'.partitionKey ∧ s'.acknowledgedIds = ["event-2", "event-1"]

private theorem overtaken_of_run {actions : List Action} (key : String)
    (hrun : (do
      let s ← Relational.executeUnder step Sample.onePublisher (.initial fun _ ↦ 0)
        Sample.commitFirst
      let s' ← Relational.executeUnder step Sample.onePublisher s actions
      let row ← s'.rows.find? "event-1"
      let row' ← s'.rows.find? "event-2"
      return ((s.rows.find? "event-1").isSome, (s.rows.find? "event-2").isNone,
        row.partitionKey, row'.partitionKey, s'.acknowledgedIds)) =
      some (true, true, key, key, ["event-2", "event-1"])) : Overtaken actions := by
  obtain ⟨s, hs, hrun⟩ := Option.bind_eq_some_iff.mp hrun
  obtain ⟨s', hs', hrun⟩ := Option.bind_eq_some_iff.mp hrun
  obtain ⟨row, hrow, hrun⟩ := Option.bind_eq_some_iff.mp hrun
  obtain ⟨row', hrow', hrun⟩ := Option.bind_eq_some_iff.mp hrun
  simp only [Option.pure_def, Option.some.injEq, Prod.mk.injEq] at hrun
  obtain ⟨hfirst, hsecond, hkey, hkey', hacknowledged⟩ := hrun
  exact ⟨s, s', row, row', hs, hs', hfirst, hsecond, hrow, hrow', hkey.trans hkey'.symm,
    hacknowledged⟩

/-- One publisher that does not crash publishes two events of one account in the wrong order:
because of the order in which a claim returns them, because a send fails, and because a batch is
aborted. -/
theorem order_lost :
    Overtaken Sample.returnedFirst ∧ Overtaken Sample.overtaken ∧ Overtaken Sample.aborted := by
  have hreturned : Overtaken Sample.returnedFirst :=
    overtaken_of_run "account-1" (by decide +kernel)
  have hfailed : Overtaken Sample.overtaken :=
    overtaken_of_run "account-1" (by decide +kernel)
  have haborted : Overtaken Sample.aborted :=
    overtaken_of_run "account-1" (by decide +kernel)
  exact ⟨hreturned, hfailed, haborted⟩

end Banking.Outbox
