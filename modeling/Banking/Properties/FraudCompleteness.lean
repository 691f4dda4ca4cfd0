import Banking.Properties.FraudFlags
import Banking.Refinement.SequentialFraud

/-!
# Which bursts are flagged

The worker counts backwards from the event that it handles, among the transactions delivered so
far. It flags every burst if the events arrive in the order in which they occurred; a burst that
arrives in the opposite order goes unnoticed.
-/

namespace Banking.AsyncFraud

open Js (Date)
open Relational (Table)

variable {partition : String → Nat} {source : Banking.Database} {eventIds eventIds' : List String}
  {eventId accountId transactionId : String} {signal : Signal} {t : Date} {o : Observation}

/-! ### Bursts -/

/-- One of the events, which the worker observes at the time, shows the signal. -/
def Shows (source : Banking.Database) (eventIds : List String) (signal : Signal) (t : Date)
    (o : Observation) : Prop :=
  o ∈ observations source eventIds ∧ signal ∈ o.signals ∧ o.observedAt = t

/-- The distinct transactions of the events with the signal that occurred between two times. -/
def transactionsWith (source : Banking.Database) (eventIds : List String) (signal : Signal)
    (gte lte : Date) : List String :=
  (((observations source eventIds).filter fun o ↦
    decide (signal ∈ o.signals ∧ gte ≤ o.observedAt ∧ o.observedAt ≤ lte)).map
      fun o ↦ o.payload.transactionId).dedup

/-- At the time, more than five distinct transactions with the signal have occurred in a minute. -/
structure Burst (source : Banking.Database) (eventIds : List String) (signal : Signal)
    (t : Date) : Prop where
  last : ∃ o, Shows source eventIds signal t o
  crowded : 5 < (transactionsWith source eventIds signal (t - 60000) t).length

/-- Every burst is flagged: an account of a transaction that occurred at its time is. -/
def Complete (source : Banking.Database) (eventIds : List String) (db : Database) : Prop :=
  ∀ {signal t}, Burst source eventIds signal t →
    ∃ o, Shows source eventIds signal t o ∧ (flaggedAt db o.payload.accountId).isSome = true

/-- Every burst is caught: an account of a transaction that occurred at its time has an event whose
first delivery was one too many. -/
def Timely (source : Banking.Database) (eventIds : List String) : Prop :=
  ∀ {signal t}, Burst source eventIds signal t →
    ∃ o, Shows source eventIds signal t o ∧ Caught source eventIds o.payload.accountId

/-- No two of the events occurred at the same time. -/
def DistinctTimes (source : Banking.Database) (eventIds : List String) : Prop :=
  ∀ {eventId eventId' o o'}, eventId ∈ eventIds → eventId' ∈ eventIds →
    observed source eventId = some o → observed source eventId' = some o' →
    o.observedAt = o'.observedAt → eventId = eventId'

/-- The worker has not handled anything. -/
structure Unseen (source : Banking.Database) : Prop where
  unflagged : ∀ {id account}, source.accounts.find? id = some account →
    account.fraudFlaggedAt = none
  unprocessed : ∀ eventId, source.processedEvents.find? (CONSUMER_NAME, eventId) = none

/-- An observed event is in the outbox. -/
theorem mem_outboxEvents (ho : observed source eventId = some o) :
    eventId ∈ source.outboxEvents.rows.map OutboxEvent.id := by
  obtain ⟨event, hdelivered, -⟩ := Option.bind_eq_some_iff.mp ho
  obtain ⟨e, he, -⟩ := delivered_eq_some hdelivered
  have hkey : e.id = eventId := Table.key_of_find? he
  exact hkey ▸ List.mem_map_of_mem (Table.mem_of_find? he)

/-- The transactions with the signal are those of observed events. -/
theorem mem_transactionsWith {gte lte : Date} :
    transactionId ∈ transactionsWith source eventIds signal gte lte ↔
      ∃ o ∈ observations source eventIds, signal ∈ o.signals ∧
        o.payload.transactionId = transactionId ∧ gte ≤ o.observedAt ∧ o.observedAt ≤ lte := by
  rw [transactionsWith, List.mem_dedup, List.mem_map]
  constructor
  · rintro ⟨o, ho, rfl⟩
    obtain ⟨ho, hshows⟩ := List.mem_filter.mp ho
    obtain ⟨hsignal, hwindow⟩ := of_decide_eq_true hshows
    exact ⟨o, ho, hsignal, rfl, hwindow⟩
  · rintro ⟨o, ho, hsignal, rfl, hwindow⟩
    exact ⟨o, List.mem_filter.mpr ⟨ho, decide_eq_true ⟨hsignal, hwindow⟩⟩, rfl⟩

/-- No transaction is listed twice. -/
private theorem length_transactionsWith_le {gte lte : Date} {transactionIds : List String}
    (hsub : transactionsWith source eventIds signal gte lte ⊆ transactionIds) :
    (transactionsWith source eventIds signal gte lte).length ≤ transactionIds.length :=
  (List.subperm_of_subset (List.nodup_dedup _) hsub).length_le

/-- A burst of some events is one of more events. -/
theorem Burst.mono (hsub : eventIds ⊆ eventIds') (h : Burst source eventIds signal t) :
    Burst source eventIds' signal t := by
  have hmem : ∀ o ∈ observations source eventIds, o ∈ observations source eventIds' := by
    intro o ho
    obtain ⟨eventId, heventId, ho⟩ := List.mem_filterMap.mp ho
    exact List.mem_filterMap.mpr ⟨eventId, hsub heventId, ho⟩
  obtain ⟨⟨o, ho, hshows⟩, hcrowded⟩ := h
  refine ⟨⟨o, hmem o ho, hshows⟩, Nat.lt_of_lt_of_le hcrowded ?_⟩
  refine length_transactionsWith_le fun transactionId htransaction ↦ ?_
  obtain ⟨o, ho, hshows⟩ := mem_transactionsWith.mp htransaction
  exact mem_transactionsWith.mpr ⟨o, hmem o ho, hshows⟩

/-! ### What is flagged -/

/-- Before any delivery nothing is recorded. -/
theorem Tracked.initial (h : Unseen source) (now : Date) :
    Tracked source [] (initial source now).db where
  outbox := .refl source
  signals _ _ := rfl
  processed {eventId _} _ := by
    change (source.processedEvents.find? (CONSUMER_NAME, eventId)).isSome = true ↔ _
    rw [h.unprocessed]
    simp
  flags accountId := by
    refine iff_of_false ?_ ?_
    · change ¬ ((source.accounts.find? accountId).bind _).isSome = true
      cases hfound : source.accounts.find? accountId with
      | none => simp
      | some account => simp [h.unflagged hfound]
    · rintro ⟨before, eventId, after, o, signal, hsplit, -⟩
      exact absurd hsplit.symm (List.append_ne_nil_of_right_ne_nil _ (List.cons_ne_nil _ _))

variable {now now' : Date} {s s' : SystemState}

/-- An account is flagged if and only if it was caught. -/
theorem flagged_iff (hunseen : Unseen source)
    (h : Processes partition eventIds (initial source now) s) :
    (flaggedAt s.db accountId).isSome = true ↔ Caught source eventIds accountId :=
  ((Tracked.initial hunseen now).process h).flags accountId

/-- Every burst is flagged if and only if every burst is caught. -/
theorem complete_iff (hunseen : Unseen source)
    (h : Processes partition eventIds (initial source now) s) :
    Complete source eventIds s.db ↔ Timely source eventIds := by
  constructor
  · intro hcomplete signal t hburst
    obtain ⟨o, ho, hflagged⟩ := hcomplete hburst
    exact ⟨o, ho, (flagged_iff hunseen h).mp hflagged⟩
  · intro htimely signal t hburst
    obtain ⟨o, ho, hcaught⟩ := htimely hburst
    exact ⟨o, ho, (flagged_iff hunseen h).mpr hcaught⟩

/-- An account that was caught has a transaction at the time of a burst. -/
theorem Caught.burst (h : Caught source eventIds accountId) :
    ∃ o signal, Shows source eventIds signal o.observedAt o ∧ o.payload.accountId = accountId ∧
      Burst source eventIds signal o.observedAt := by
  obtain ⟨before, eventId, after, o, signal, rfl, -, ho, haccount, hsignal, hcount⟩ := h
  have hshows : Shows source (before ++ eventId :: after) signal o.observedAt o :=
    ⟨List.mem_filterMap.mpr ⟨eventId, by simp, ho⟩, hsignal, rfl⟩
  refine ⟨o, signal, hshows, haccount, ⟨o, hshows⟩, Nat.lt_of_lt_of_le hcount ?_⟩
  refine (List.subperm_of_subset (nodup_counted _ _) fun transactionId hcounted ↦ ?_).length_le
  obtain ⟨o', ho', hwindow⟩ := mem_counted.mp hcounted
  obtain ⟨hmem, hsignal', htid⟩ := earliest_eq_some ho'
  obtain ⟨eventId', hdelivered, hobserved⟩ := List.mem_filterMap.mp hmem
  have hmem' : eventId' ∈ before ++ eventId :: after := by
    rcases List.mem_append.mp hdelivered with hbefore | hlast
    · exact List.mem_append_left _ hbefore
    · simp [List.mem_singleton.mp hlast]
  exact mem_transactionsWith.mpr ⟨o', List.mem_filterMap.mpr ⟨eventId', hmem', hobserved⟩, hsignal',
    htid, hwindow⟩

/-- If all events occurred at different times, what one order catches is caught in every order of
the same events that catches all bursts. -/
theorem Caught.reorder (hsub : eventIds ⊆ eventIds') (hdistinct : DistinctTimes source eventIds')
    (htimely : Timely source eventIds') (h : Caught source eventIds accountId) :
    Caught source eventIds' accountId := by
  obtain ⟨o, signal, ⟨hmem, -⟩, haccount, hburst⟩ := h.burst
  obtain ⟨o', ⟨hmem', -, htime⟩, hcaught⟩ := htimely (hburst.mono hsub)
  obtain ⟨eventId, heventId, ho⟩ := List.mem_filterMap.mp hmem
  obtain ⟨eventId', heventId', ho'⟩ := List.mem_filterMap.mp hmem'
  obtain rfl := hdistinct heventId' (hsub heventId) ho' ho htime
  obtain rfl := Option.some.inj (ho.symm.trans ho')
  rwa [haccount] at hcaught

/-! ### Deliveries in order -/

/-- Events are delivered for the first time in the order in which they occurred. -/
def InOrder (source : Banking.Database) (eventIds : List String) : Prop :=
  ∀ {before eventId after eventId' o o'}, eventIds = before ++ eventId :: after →
    eventId ∉ before → eventId' ∈ before → observed source eventId = some o →
    observed source eventId' = some o' → o'.observedAt ≤ o.observedAt

/-- It suffices that the times of all deliveries increase. -/
theorem InOrder.of_pairwise
    (h : ((observations source eventIds).map Observation.observedAt).Pairwise fun t t' ↦ t ≤ t') :
    InOrder source eventIds := by
  rintro before eventId after eventId' o o' rfl - hbefore ho ho'
  rw [observations, List.filterMap_append, List.map_append, List.pairwise_append] at h
  refine h.2.2 _ (List.mem_map_of_mem (List.mem_filterMap.mpr ⟨eventId', hbefore, ho'⟩)) _
    (List.mem_map_of_mem (List.mem_filterMap.mpr ⟨eventId, List.mem_cons_self, ho⟩))

/-- Some first occurrence is the last among those with a property. -/
private theorem exists_last_first {α : Type} {P : α → Prop} {l : List α} (h : ∃ x ∈ l, P x) :
    ∃ before x after, l = before ++ x :: after ∧ x ∉ before ∧ P x ∧
      ∀ y ∈ l, P y → y ∈ before ++ [x] := by
  induction l using List.reverseRecOn with
  | nil => simp at h
  | append_singleton l last ih =>
    by_cases hlast : P last ∧ last ∉ l
    · exact ⟨l, last, [], rfl, hlast.2, hlast.1, fun _ hy _ ↦ hy⟩
    · have hmem : ∀ y ∈ l ++ [last], P y → y ∈ l := by
        intro y hy hP
        rcases List.mem_append.mp hy with hl | hy
        · exact hl
        · obtain rfl := List.mem_singleton.mp hy
          by_contra hl
          exact hlast ⟨hP, hl⟩
      obtain ⟨x, hx, hP⟩ := h
      obtain ⟨before, x, after, rfl, hfirst, hx, hafter⟩ := ih ⟨x, hmem x hx hP, hP⟩
      exact ⟨before, x, after ++ [last], by simp, hfirst, hx,
        fun y hy hP ↦ hafter y (hmem y hy hP) hP⟩

/-- If every transaction has one event, and the events are delivered in the order in which they
occurred, every burst is caught. -/
theorem timely_of_inOrder (hsingle : Single source) (horder : InOrder source eventIds) :
    Timely source eventIds := by
  rintro signal t ⟨⟨o, hmem, hsignal, rfl⟩, hcrowded⟩
  obtain ⟨eventId, heventId, ho⟩ := List.mem_filterMap.mp hmem
  -- the last of the events with the signal up to the time
  obtain ⟨before, last, after, hsplit, hfirst, ⟨o', ho', hsignal', htime'⟩, hlast⟩ :=
    exists_last_first (P := fun x ↦ ∃ o', observed source x = some o' ∧ signal ∈ o'.signals ∧
      o'.observedAt ≤ o.observedAt) ⟨eventId, heventId, o, ho, hsignal, Int.le_refl _⟩
  have htime : o.observedAt ≤ o'.observedAt := by
    rcases List.mem_append.mp (hlast eventId heventId ⟨o, ho, hsignal, Int.le_refl _⟩) with
      hbefore | hsame
    · exact horder hsplit hfirst hbefore ho' ho
    · obtain rfl := List.mem_singleton.mp hsame
      obtain rfl := Option.some.inj (ho.symm.trans ho')
      exact Int.le_refl _
  have hsame : o'.observedAt = o.observedAt := Int.le_antisymm htime' htime
  have hshows : Shows source eventIds signal o.observedAt o' :=
    ⟨List.mem_filterMap.mpr ⟨last, by simp [hsplit], ho'⟩, hsignal', hsame⟩
  refine ⟨o', hshows, before, last, after, o', signal, hsplit, hfirst, ho', rfl, hsignal',
    Nat.lt_of_lt_of_le hcrowded ?_⟩
  refine length_transactionsWith_le fun transactionId htransaction ↦ ?_
  obtain ⟨p, hp, hshows, rfl, hgte, hlte⟩ := mem_transactionsWith.mp htransaction
  obtain ⟨x, hx, hp⟩ := List.mem_filterMap.mp hp
  have hmem : p ∈ observations source (before ++ [last]) :=
    List.mem_filterMap.mpr ⟨x, hlast x hx ⟨p, hp, hshows, hlte⟩, hp⟩
  rw [mem_counted, hsame]
  cases hfound : earliest source (before ++ [last]) signal p.payload.transactionId with
  | none => exact absurd (decide_eq_true ⟨hshows, rfl⟩) (List.find?_eq_none.mp hfound p hmem)
  | some q =>
    obtain ⟨hmem, -, htid⟩ := earliest_eq_some hfound
    obtain ⟨y, -, hq⟩ := List.mem_filterMap.mp hmem
    obtain rfl := hsingle hq hp htid
    obtain rfl := Option.some.inj (hq.symm.trans hp)
    exact ⟨q, rfl, hgte, hlte⟩

/-! ### Any order -/

/-- However events are delivered in two orders: both flag every burst of what they deliver, and the
same accounts if they deliver the same events and no two of them occurred at the same time, if and
only if both catch every burst. -/
theorem flags_complete_iff (hunseen : Unseen source)
    (h : Processes partition eventIds (initial source now) s)
    (h' : Processes partition eventIds' (initial source now') s') :
    (Complete source eventIds s.db ∧ Complete source eventIds' s'.db ∧
      (eventIds ⊆ eventIds' → eventIds' ⊆ eventIds → DistinctTimes source eventIds →
        ∀ accountId, (flaggedAt s.db accountId).isSome = true ↔
          (flaggedAt s'.db accountId).isSome = true)) ↔
      Timely source eventIds ∧ Timely source eventIds' := by
  rw [complete_iff hunseen h, complete_iff hunseen h', ← and_assoc]
  refine ⟨And.left, fun htimely ↦ ⟨htimely, fun hsub hsub' hdistinct accountId ↦ ?_⟩⟩
  have hdistinct' : DistinctTimes source eventIds' :=
    fun hmem hmem' ↦ hdistinct (hsub' hmem) (hsub' hmem')
  rw [flagged_iff hunseen h, flagged_iff hunseen h']
  exact ⟨Caught.reorder hsub hdistinct' htimely.2, Caught.reorder hsub' hdistinct htimely.1⟩

/-! ### A burst in two orders -/

namespace Sample

/-- The engine handles the requests a millisecond apart. -/
def burst : List Banking.SystemAction :=
  Banking.Sample.inputs.zipIdx.flatMap fun (input, k) ↦
    .tick (1001 + k : Int) :: .start k (.create input Banking.Sample.request) ::
      Banking.Sample.execute k 13 k

/-- The process has handled the event of the `k`-th request. -/
def handled (k : Nat) (s : SystemState) : Bool :=
  match s.session k with
  | some ⟨eventId, _, .done (.returned ())⟩ => eventId == Banking.Sample.uuid k
  | _ => false

/-- The event of a request is handled to completion with a number of statements. -/
def handle (s : SystemState) (delivery : Nat × Nat) : Option SystemState :=
  (Relational.run (begins fun _ ↦ 0) s (deliver delivery.1 delivery.2)).filter
    (handled delivery.1)

/-- The events of the deliveries. -/
def handledIds (deliveries : List (Nat × Nat)) : List String :=
  deliveries.map fun delivery ↦ Banking.Sample.uuid delivery.1

/-- The events arrive as they occurred; the last flags the account. -/
def inOrder : List (Nat × Nat) := [(0, 8), (1, 8), (2, 8), (3, 8), (4, 8), (5, 11)]

/-- The last event arrives first. -/
def reversed : List (Nat × Nat) := [(5, 8), (4, 8), (3, 8), (2, 8), (1, 8), (0, 8)]

/-- The device that the requests share. -/
def device : Signal := ⟨"DEVICE", "device-1"⟩

/-- Deliveries that are handled are processed. -/
theorem processes {deliveries : List (Nat × Nat)} {s s' : SystemState}
    (h : deliveries.foldlM handle s = some s') :
    Processes (fun _ ↦ 0) (handledIds deliveries) s s' := by
  induction deliveries generalizing s with
  | nil =>
    cases h
    exact .nil
  | cons delivery deliveries ih =>
    rw [List.foldlM_cons] at h
    obtain ⟨t, ht, hrest⟩ := Option.bind_eq_some_iff.mp h
    obtain ⟨hrun, hhandled⟩ := Option.filter_eq_some_iff.mp ht
    refine .cons ⟨delivery.1, ?_⟩ (ih hrest)
    rw [handled] at hhandled
    split at hhandled
    · next eventId born hsession =>
      obtain rfl := eq_of_beq hhandled
      refine ⟨born, _, fun a ha ↦ ?_, hrun, hsession⟩
      exact .inl ⟨_, List.eq_of_mem_replicate ha⟩
    · cases hhandled

/-- The engine publishes the burst, and no account is flagged. -/
def unnoticed (engine : Banking.Database) (s : SystemState) : Bool :=
  decide (engine.outboxEvents.rows.map OutboxEvent.id = handledIds inOrder ∧
    engine.processedEvents.rows.length = 0 ∧
    (handledIds inOrder).map (fun eventId ↦
      (observed engine eventId).map fun o ↦ (o.observedAt, o.signals)) =
        ([1001, 1002, 1003, 1004, 1005, 1006].map fun t : Int ↦
          some (t, [device, ⟨"IP", "127.0.0.1"⟩])) ∧
    [inOrder, reversed].map (fun deliveries ↦ (transactionsWith engine (handledIds deliveries)
      device (1006 - 60000 : Int) (1006 : Int)).length) = [6, 6] ∧
    s.db.accounts.rows.map Account.fraudFlaggedAt = [none])

end Sample

/-- The burst is handled in both orders. -/
private theorem handled_burst : ∃ engine s s', Banking.Sample.after Sample.burst = some engine ∧
    Sample.inOrder.foldlM Sample.handle (initial engine.db 2000) = some s ∧
    Sample.reversed.foldlM Sample.handle (initial engine.db 2000) = some s' ∧
    Sample.unnoticed engine.db s' = true := by
  have hrun : (do
      let engine ← Banking.Sample.after Sample.burst
      let s ← Sample.inOrder.foldlM Sample.handle (initial engine.db 2000)
      let s' ← Sample.reversed.foldlM Sample.handle (initial engine.db 2000)
      return Sample.unnoticed engine.db s') = some true := by
    decide +kernel
  obtain ⟨engine, hengine, hrun⟩ := Option.bind_eq_some_iff.mp hrun
  obtain ⟨s, hs, hrun⟩ := Option.bind_eq_some_iff.mp hrun
  obtain ⟨s', hs', hrun⟩ := Option.bind_eq_some_iff.mp hrun
  exact ⟨engine, s, s', hengine, hs, hs', Option.some.inj hrun⟩

variable {engine : Banking.Database}

/-- The worker has handled nothing of the burst. -/
private theorem unseen_burst {state : Banking.SystemState}
    (hengine : Banking.Sample.after Sample.burst = some state)
    (h : Sample.unnoticed state.db s = true) : Unseen state.db where
  unflagged := unflagged (by decide) (Relational.runs_of_run hengine)
  unprocessed eventId := by
    obtain ⟨-, hnone, -⟩ := of_decide_eq_true h
    rw [Table.find?_eq_none, List.eq_nil_of_length_eq_zero hnone]
    simp

/-- All events of the burst are delivered. -/
private theorem delivered_burst (h : Sample.unnoticed engine s = true)
    (ho : observed engine eventId = some o) : eventId ∈ Sample.handledIds Sample.inOrder := by
  obtain ⟨hids, -⟩ := of_decide_eq_true h
  exact hids ▸ mem_outboxEvents ho

/-- The last event completes the burst, in both orders. -/
private theorem burst_burst (h : Sample.unnoticed engine s = true) {deliveries : List (Nat × Nat)}
    (hdeliveries : deliveries ∈ [Sample.inOrder, Sample.reversed]) :
    Burst engine (Sample.handledIds deliveries) Sample.device (1006 : Int) := by
  obtain ⟨-, -, hobserved, hcount, -⟩ := of_decide_eq_true h
  simp only [List.map_cons, List.map_nil, List.cons.injEq, and_true] at hcount
  have hlast := congrArg (·[5]?) hobserved
  obtain ⟨o, ho, hshown⟩ := Option.map_eq_some_iff.mp (Option.some.inj hlast)
  obtain ⟨htime, hsignals⟩ := Prod.mk.inj hshown
  have hmem : Banking.Sample.uuid 5 ∈ Sample.handledIds deliveries := by
    revert deliveries
    decide
  refine ⟨⟨o, List.mem_filterMap.mpr ⟨_, hmem, ho⟩, hsignals ▸ List.mem_cons_self, htime⟩, ?_⟩
  simp only [List.mem_cons, List.not_mem_nil, or_false] at hdeliveries
  rcases hdeliveries with rfl | rfl
  · rw [hcount.1]
    decide
  · rw [hcount.2]
    decide

/-- The events of the burst occurred one after the other. -/
private theorem inOrder_burst (h : Sample.unnoticed engine s = true) :
    InOrder engine (Sample.handledIds Sample.inOrder) := by
  obtain ⟨-, -, hobserved, -⟩ := of_decide_eq_true h
  have htimes : (observations engine (Sample.handledIds Sample.inOrder)).map
      Observation.observedAt = ((Sample.handledIds Sample.inOrder).map fun eventId ↦
        (observed engine eventId).map fun o ↦ (o.observedAt, o.signals)).filterMap
          (Option.map Prod.fst) := by
    rw [observations, List.map_filterMap, List.filterMap_map]
    refine List.filterMap_congr fun eventId _ ↦ ?_
    rw [Function.comp_apply, Option.map_map]
    rfl
  have hpairwise : ((observations engine (Sample.handledIds Sample.inOrder)).map
      Observation.observedAt).Pairwise fun t t' ↦ t ≤ t' := by
    rw [htimes, hobserved]
    decide
  exact @InOrder.of_pairwise _ _ hpairwise

/-- The events of the burst occurred at different times. -/
private theorem distinctTimes_burst (h : Sample.unnoticed engine s = true) :
    DistinctTimes engine (Sample.handledIds Sample.inOrder) := by
  intro eventId eventId' o o' hmem hmem' ho ho' htime
  obtain ⟨-, -, hobserved, -⟩ := of_decide_eq_true h
  have hnodup : ((Sample.handledIds Sample.inOrder).map fun eventId ↦
      (observed engine eventId).map Observation.observedAt).Nodup := by
    have htimes := congrArg (List.map (Option.map Prod.fst)) hobserved
    rw [List.map_map] at htimes
    simp only [Function.comp_def, Option.map_map] at htimes
    change (List.map (fun eventId ↦ (observed engine eventId).map fun o ↦ o.observedAt) _).Nodup
    rw [htimes]
    decide
  refine List.inj_on_of_nodup_map hnodup hmem hmem' ?_
  rw [ho, ho', Option.map_some, Option.map_some, htime]

/-- A burst that arrives in the opposite order flags nobody, although it flags an account if it
arrives in order. -/
theorem burst_unnoticed : ∃ engine s s', Banking.Sample.after Sample.burst = some engine ∧
    Processes (fun _ ↦ 0) (Sample.handledIds Sample.inOrder) (initial engine.db 2000) s ∧
    Processes (fun _ ↦ 0) (Sample.handledIds Sample.reversed) (initial engine.db 2000) s' ∧
    (Sample.handledIds Sample.inOrder).Perm (Sample.handledIds Sample.reversed) ∧
    (∀ {eventId o}, observed engine.db eventId = some o →
      eventId ∈ Sample.handledIds Sample.inOrder) ∧
    ¬ Complete engine.db (Sample.handledIds Sample.reversed) s'.db ∧
    DistinctTimes engine.db (Sample.handledIds Sample.inOrder) ∧
    ∃ accountId, (flaggedAt s.db accountId).isSome = true ∧
      (flaggedAt s'.db accountId).isSome = false := by
  obtain ⟨engine, s, s', hengine, hs, hs', h⟩ := handled_burst
  have hunseen : Unseen engine.db := unseen_burst hengine h
  have hprocesses := Sample.processes hs
  have hunflagged : ∀ accountId, flaggedAt s'.db accountId = none := by
    intro accountId
    obtain ⟨-, -, -, -, hflags⟩ := of_decide_eq_true h
    cases hfound : s'.db.accounts.find? accountId with
    | none => rw [flaggedAt, hfound, Option.bind_none]
    | some account =>
      have hmem := List.mem_map_of_mem (f := Account.fraudFlaggedAt) (Table.mem_of_find? hfound)
      rw [hflags, List.mem_singleton] at hmem
      rw [flaggedAt, hfound, Option.bind_some, hmem]
  have htimely : Timely engine.db (Sample.handledIds Sample.inOrder) :=
    timely_of_inOrder (single (consistent (Relational.runs_of_run hengine))) (inOrder_burst h)
  obtain ⟨o, -, hflagged⟩ :=
    (complete_iff hunseen hprocesses).mpr htimely (burst_burst h (by simp))
  refine ⟨engine, s, s', hengine, hprocesses, Sample.processes hs', by decide,
    fun {eventId o} ho ↦ delivered_burst h ho, fun hcomplete ↦ ?_, distinctTimes_burst h,
    o.payload.accountId, hflagged, ?_⟩
  · obtain ⟨o, -, hflagged⟩ := hcomplete (burst_burst h (by simp))
    rw [hunflagged] at hflagged
    cases hflagged
  · rw [hunflagged]
    rfl

/-- Handled in order, the burst is complete. -/
theorem flags_complete_inOrder : ∃ engine s, Banking.Sample.after Sample.burst = some engine ∧
    Processes (fun _ ↦ 0) (Sample.handledIds Sample.inOrder) (initial engine.db 2000) s ∧
    Burst engine.db (Sample.handledIds Sample.inOrder) Sample.device (1006 : Int) ∧
    Complete engine.db (Sample.handledIds Sample.inOrder) s.db := by
  obtain ⟨engine, s, s', hengine, hs, -, h⟩ := handled_burst
  have hprocesses := Sample.processes hs
  have htimely : Timely engine.db (Sample.handledIds Sample.inOrder) :=
    timely_of_inOrder (single (consistent (Relational.runs_of_run hengine))) (inOrder_burst h)
  have hboth := (flags_complete_iff (unseen_burst hengine h) hprocesses hprocesses).mpr
    ⟨htimely, htimely⟩
  exact ⟨engine, s, hengine, hprocesses, burst_burst h (by simp), hboth.1⟩

end Banking.AsyncFraud
