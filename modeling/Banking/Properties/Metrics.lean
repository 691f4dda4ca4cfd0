import Banking.Properties.Analytics
import Banking.Properties.EventFormat
import Mathlib.Algebra.BigOperators.Group.Finset.Basic

/-!
# The metrics reconcile with the books

The analytics worker counts events and never sees a transaction. However its deliveries and the
engine's statements interleave, its counters over all hours, with what it has still to count of the
outbox, are the number and the amount of the transactions that have moved a balance and of those
that are final.
-/

namespace Banking

open Analytics (Totals)
open Relational (Table valuesAt)

/-! ### The books -/

/-- The amount in the payload of an outbox row. -/
def OutboxEvent.amount (e : OutboxEvent) : Int :=
  match payloadField "amount" e.payload with
  | some (.str s) => Js.bigInt s
  | _ => 0

/-- What an outbox row says for the metrics: a completed or a finalized transaction, or nothing. -/
def OutboxEvent.worth (e : OutboxEvent) : Totals :=
  if e.eventType = "TransactionCompleted" then (1, e.amount, 0, 0)
  else if e.eventType = "TransactionFinalized" then (0, 0, 1, e.amount)
  else 0

namespace Database

/-- The transaction has moved a balance, and may have been reversed since. -/
def isSettled (db : Database) (t : Transaction) : Bool :=
  decide (t.status ≠ .BLOCKED) || db.isCompensated t

/-- The transactions that have moved a balance. -/
def settled (db : Database) : List Transaction := db.transactions.rows.filter db.isSettled

/-- The transactions that are final. -/
def finalized (db : Database) : List Transaction :=
  db.transactions.rows.filter fun t ↦ t.status = .FINALIZED

/-- Number and amount of the transactions that have moved a balance, then of the final ones. -/
def books (db : Database) : Totals :=
  (db.settled.length, (db.settled.map Transaction.amount).sum, db.finalized.length,
    (db.finalized.map Transaction.amount).sum)

/-- The messages of the rows of the outbox. -/
def messages (db : Database) : List Json := db.outboxEvents.rows.map serializeEvent

/-- What the analytics worker has still to count of the outbox. -/
def backlog (db : Database) (metrics : Analytics.Database) : Totals :=
  ((db.outboxEvents.rows.filter fun e ↦
    (metrics.processedEvents.find? (Analytics.CONSUMER_NAME, e.id)).isNone).map
      OutboxEvent.worth).sum

end Database

variable {db : Database} {t : Transaction} {balance : Int} {e : OutboxEvent}

/-- A completed event is worth its transaction. -/
private theorem IsCompletedEvent.worth (h : IsCompletedEvent t balance e) (hamount : 0 ≤ t.amount) :
    e.worth = (1, t.amount, 0, 0) := by
  have htype := h.eventType
  obtain ⟨input, ip, -, he⟩ := h
  have hn : e.amount = Js.bigInt (toString t.amount) := by
    rw [OutboxEvent.amount, he]
    rfl
  rw [OutboxEvent.worth, if_pos htype, hn, Js.bigInt_toString hamount]

/-- A finalized event is worth its transaction. -/
private theorem IsFinalizedEvent.worth (h : IsFinalizedEvent t balance e) (hamount : 0 ≤ t.amount) :
    e.worth = (0, 0, 1, t.amount) := by
  have htype := h.eventType
  have hn : e.amount = Js.bigInt (toString t.amount) := by
    rw [OutboxEvent.amount, h]
    rfl
  rw [OutboxEvent.worth, htype, hn, Js.bigInt_toString hamount]
  rfl

/-- A blocked event is worth nothing. -/
private theorem IsBlockedEvent.worth (h : IsBlockedEvent t e) : e.worth = 0 := by
  simp [OutboxEvent.worth, h.eventType]

/-- A ledger event is worth nothing. -/
private theorem IsLedgerUpdatedEvent.worth (h : IsLedgerUpdatedEvent t balance e) :
    e.worth = 0 := by
  simp [OutboxEvent.worth, h.eventType]

/-- A compensated event is worth nothing: the metrics do not take a transaction back. -/
private theorem IsCompensatedEvent.worth (h : IsCompensatedEvent t e) : e.worth = 0 := by
  simp [OutboxEvent.worth, h.eventType]

/-- What a transaction is worth for the books. -/
private def worthOf (settled : Bool) (t : Transaction) : Totals :=
  (if settled then (1, t.amount, 0, 0) else 0) +
    if t.status = .FINALIZED then (0, 0, 1, t.amount) else 0

/-- The events of a transaction are worth what the transaction is. -/
private theorem Stage.worth {r : Record} (h : Stage r) (ht : r.transaction = some t)
    (hamount : 0 ≤ t.amount) :
    (r.events.map OutboxEvent.worth).sum = worthOf (decide (t.status ≠ .BLOCKED) ||
      decide (0 < r.types.count "TransactionCompensated")) t := by
  cases h with
  | absent => cases ht
  | blocked hstatus he => cases ht; simp [worthOf, Record.types, hstatus, he.eventType, he.worth]
  | completed hstatus _ he =>
    cases ht
    simp [worthOf, hstatus, he.worth hamount]
  | posted hstatus _ he _ he' =>
    cases ht
    simp [worthOf, hstatus, he.worth hamount, he'.worth]
  | finalized hstatus _ he _ he' he'' =>
    cases ht
    simp [worthOf, hstatus, he.worth hamount, he'.worth, he''.worth hamount]
  | compensated hstatus he he'' =>
    cases ht
    simp [worthOf, Record.types, hstatus, he''.eventType, he.worth hamount, he''.worth]
  | misposted hstatus he he'' _ he' =>
    cases ht
    simp [worthOf, Record.types, hstatus, he''.eventType, he.worth hamount, he''.worth, he'.worth]

/-- What transactions are worth, added up. -/
private theorem sum_worthOf (settled : Transaction → Bool) (rows : List Transaction) :
    (rows.map fun t ↦ worthOf (settled t) t).sum =
      ((((rows.filter settled).length : Int), ((rows.filter settled).map Transaction.amount).sum,
        ((rows.filter fun t ↦ t.status = .FINALIZED).length : Int),
        ((rows.filter fun t ↦ t.status = .FINALIZED).map Transaction.amount).sum) : Totals) := by
  induction rows with
  | nil => rfl
  | cons t rows ih =>
    rw [List.map_cons, List.sum_cons, ih, worthOf]
    cases hsettled : settled t <;> by_cases hfinal : t.status = .FINALIZED <;>
      simp [hsettled, hfinal, add_comm]

/-- The books are what the outbox is worth. -/
theorem Consistent.books_eq (hc : Consistent db) :
    db.books = (db.outboxEvents.rows.map OutboxEvent.worth).sum := by
  let items := db.outboxEvents.rows.map fun e ↦ (e.transactionId, e.worth)
  -- every row is filed under a transaction
  have hcover : ∀ item ∈ items, item.1 ∈ db.transactions.rows.map Transaction.transactionId := by
    intro item hitem
    obtain ⟨e, he, rfl⟩ := List.mem_map.mp hitem
    obtain ⟨t, ht, hkey, -⟩ := hc.filed (Table.find?_of_mem he)
    exact List.mem_map.mpr ⟨t, Table.mem_of_find? ht, hkey⟩
  have heach : ∀ t ∈ db.transactions.rows,
      (valuesAt items t.transactionId).sum = worthOf (db.isSettled t) t := by
    intro t ht
    have hfound := Table.find?_of_mem ht
    have hworth := (hc.stage t.transactionId).worth hfound (Int.le_of_lt (hc.amount_pos hfound))
    rw [Database.isSettled, Database.isCompensated, Database.eventCount_eq, ← hworth]
    have hvalues : valuesAt items t.transactionId =
        (db.trail t.transactionId).map OutboxEvent.worth := by
      simp [items, valuesAt, Database.trail, List.filter_map, Function.comp_def]
    rw [hvalues]
    rfl
  calc db.books
      = (db.transactions.rows.map fun t ↦ worthOf (db.isSettled t) t).sum :=
        (sum_worthOf _ _).symm
    _ = ((db.transactions.rows.map Transaction.transactionId).map
          fun k ↦ (valuesAt items k).sum).sum := by
        rw [List.map_map]
        exact congrArg List.sum (List.map_congr_left fun t ht ↦ (heach t ht).symm)
    _ = (items.map Prod.snd).sum := Relational.sum_valuesAt db.transactions.unique hcover
    _ = (db.outboxEvents.rows.map OutboxEvent.worth).sum := by simp [items, Function.comp_def]

/-! ### The metrics -/

namespace Analytics

variable {topic : Topic} {metrics : Database} {event : TransactionEvent}

/-- The counters of all hours. -/
def Database.grandTotal (metrics : Database) : Totals :=
  (metrics.analyticsMetrics.rows.map AnalyticsMetric.totals).sum

/-- What an event adds to the counters. -/
private def gain (event : TransactionEvent) : Totals := ((counted event).map Prod.snd).getD 0

/-- What the processed events add to an hour. -/
def hourTotals (topic : Topic) (metrics : Database) (b : Js.Date) : Totals :=
  (valuesAt ((processed topic metrics).filterMap counted) b).sum

/-- A metric has the totals of its hour. -/
theorem Tallied.totals_eq (h : Tallied topic metrics) {m : AnalyticsMetric}
    (hm : m ∈ metrics.analyticsMetrics.rows) :
    m.totals = hourTotals topic metrics m.bucketStart := by
  have htotals := h.totals m.bucketStart
  rw [Database.totals, Table.find?_of_mem hm, Relational.getD_tally] at htotals
  exact htotals

/-- An hour has a metric when a processed event is counted in it. -/
theorem Tallied.mem_buckets (h : Tallied topic metrics) (b : Js.Date) :
    b ∈ metrics.analyticsMetrics.rows.map AnalyticsMetric.bucketStart ↔
      ∃ e ∈ processed topic metrics, ∃ delta, Analytics.counted e = some (b, delta) := by
  have hmetric : b ∈ metrics.analyticsMetrics.rows.map AnalyticsMetric.bucketStart ↔
      (metrics.analyticsMetrics.find? b).isSome = true := by
    rw [List.mem_map, Option.isSome_iff_exists]
    constructor
    · rintro ⟨m, hm, rfl⟩
      exact ⟨m, Table.find?_of_mem hm⟩
    · rintro ⟨m, hm⟩
      exact ⟨m, Table.mem_of_find? hm, Table.key_of_find? hm⟩
  rw [hmetric, h.buckets b, Option.isSome_map, Relational.isSome_tally, List.mem_map]
  constructor
  · rintro ⟨item, hitem, rfl⟩
    obtain ⟨e, he, hcounted⟩ := List.mem_filterMap.mp hitem
    exact ⟨e, he, item.2, hcounted⟩
  · rintro ⟨e, he, delta, hcounted⟩
    exact ⟨(b, delta), List.mem_filterMap.mpr ⟨e, he, hcounted⟩, rfl⟩

/-- What the events of a list add, one by one. -/
private theorem sum_counted (events : List TransactionEvent) :
    ((events.filterMap counted).map Prod.snd).sum = (events.map gain).sum := by
  induction events with
  | nil => rfl
  | cons e events ih => cases hc : counted e <;> simp [gain, hc, ih]

/-- The counters of all hours are what the processed events add. -/
private theorem Tallied.grandTotal_eq (h : Tallied topic metrics) :
    metrics.grandTotal = ((processed topic metrics).map gain).sum := by
  have hcover : ∀ item ∈ (processed topic metrics).filterMap Analytics.counted,
      item.1 ∈ metrics.analyticsMetrics.rows.map AnalyticsMetric.bucketStart := by
    intro item hitem
    obtain ⟨e, he, hcounted⟩ := List.mem_filterMap.mp hitem
    exact (h.mem_buckets item.1).mpr ⟨e, he, item.2, hcounted⟩
  calc metrics.grandTotal
      = ((metrics.analyticsMetrics.rows.map AnalyticsMetric.bucketStart).map
          (hourTotals topic metrics)).sum := by
        rw [List.map_map]
        exact congrArg List.sum (List.map_congr_left fun m hm ↦ h.totals_eq hm)
    _ = (((processed topic metrics).filterMap Analytics.counted).map Prod.snd).sum :=
        Relational.sum_valuesAt metrics.analyticsMetrics.unique hcover
    _ = ((processed topic metrics).map gain).sum := sum_counted _

/-! ### The events of the outbox -/

variable {messages : List Json} {m : SystemState}

/-- The messages that consumers decode are rows of the outbox, in any order and any number of times,
and events of types that are not counted under identifiers of their own. -/
def Carries (messages : List Json) (source : Banking.Database) : Prop :=
  ∀ m ∈ messages, ∀ event, transactionEventSchema (some m) = some event →
    m ∈ source.messages ∨ ¬ IsCounted event ∧ source.outboxEvents.find? event.eventId = none

/-- What is read of a row adds what the row is worth. -/
private theorem gain_of_reads (h : Reads e event) : gain event = e.worth := by
  have hamount : amount event = e.amount := by
    rw [OutboxEvent.amount, ← h.payload]
    rfl
  by_cases hcompleted : e.eventType = "TransactionCompleted"
  · obtain ⟨payload, hpayload, -⟩ := h.completed hcompleted
    have htype := h.eventType.trans hcompleted
    obtain ⟨t, -, hcounted⟩ := counted_completed htype (by
      rw [counted, if_pos htype, hpayload, h.occurredAt]
      rfl)
    rw [gain, hcounted, OutboxEvent.worth, if_pos hcompleted, hamount]
    rfl
  · by_cases hfinalized : e.eventType = "TransactionFinalized"
    · obtain ⟨payload, hpayload, -⟩ := h.finalized hfinalized
      have htype := h.eventType.trans hfinalized
      obtain ⟨t, -, hcounted⟩ := counted_finalized htype (by
        rw [counted, if_neg (h.eventType ▸ hcompleted), if_pos htype, hpayload, h.occurredAt]
        rfl)
      rw [gain, hcounted, OutboxEvent.worth, if_neg hcompleted, if_pos hfinalized, hamount]
      rfl
    · have hother : ¬ IsCounted event := by
        rw [IsCounted, h.eventType]
        exact not_or.mpr ⟨hcompleted, hfinalized⟩
      rw [gain, counted_other hother, OutboxEvent.worth, if_neg hcompleted, if_neg hfinalized]
      rfl

/-- What the row with an identifier is worth. -/
private def worthAt (source : Banking.Database) (id : String) : Totals :=
  ((source.outboxEvents.find? id).map OutboxEvent.worth).getD 0

/-- A processed event adds what the row with its identifier is worth, if there is one. -/
private theorem gain_of_processed {source : Banking.Database} (hcarries : Carries messages source)
    (hreads : ∀ e ∈ source.outboxEvents.rows, ∃ event, Reads e event)
    (he : event ∈ processed (.ofMessages messages) m.db) :
    gain event = worthAt source event.eventId := by
  obtain ⟨p, -, hevent⟩ := List.mem_filterMap.mp he
  obtain ⟨m, hm, hdecoded⟩ := List.mem_filterMap.mp (List.mem_of_find?_eq_some hevent)
  rcases hcarries m hm event hdecoded with hmessage | ⟨hother, hnone⟩
  · obtain ⟨row, hrow, rfl⟩ := List.mem_map.mp hmessage
    obtain ⟨event', hread⟩ := hreads row hrow
    obtain rfl := Option.some.inj (hdecoded.symm.trans hread.decoded)
    rw [gain_of_reads hread, worthAt, hread.eventId, Table.find?_of_mem hrow]
    rfl
  · rw [gain, counted_other hother, worthAt, hnone]
    rfl

/-- The counters of all hours are what the rows are worth whose events have been processed. -/
private theorem Tallied.grandTotal_eq_marked {source : Banking.Database}
    (h : Tallied (.ofMessages messages) m.db) (hcarries : Carries messages source)
    (hreads : ∀ e ∈ source.outboxEvents.rows, ∃ event, Reads e event) :
    m.db.grandTotal = ((source.outboxEvents.rows.filter fun e ↦
      (m.db.processedEvents.find? (CONSUMER_NAME, e.id)).isSome).map OutboxEvent.worth).sum := by
  let marked := source.outboxEvents.rows.filter fun e ↦
    (m.db.processedEvents.find? (CONSUMER_NAME, e.id)).isSome
  let ids := (processed (.ofMessages messages) m.db).map EventOf.eventId
  have hnodup : (marked.map OutboxEvent.id).Nodup :=
    source.outboxEvents.unique.sublist (List.filter_sublist.map _)
  -- a marked row has been processed
  have hsubset : (marked.map OutboxEvent.id).toFinset ⊆ ids.toFinset := by
    intro id hid
    obtain ⟨e, he, rfl⟩ := List.mem_map.mp (List.mem_toFinset.mp hid)
    obtain ⟨p, hp⟩ := Option.isSome_iff_exists.mp (List.mem_filter.mp he).2
    have hkey := Table.key_of_find? hp
    obtain ⟨event, hevent⟩ :=
      Option.isSome_iff_exists.mp (h.events p (Table.mem_of_find? hp))
    have hmem : event ∈ processed (.ofMessages messages) m.db :=
      List.mem_filterMap.mpr ⟨p, Table.mem_of_find? hp, hevent⟩
    have hid := Topic.eventId _ hevent
    exact List.mem_toFinset.mpr (List.mem_map.mpr ⟨event, hmem, hid.trans (Prod.mk.inj hkey).2⟩)
  -- and what has been processed beside them is no row
  have hothers : ∀ id ∈ ids.toFinset, id ∉ (marked.map OutboxEvent.id).toFinset →
      worthAt source id = 0 := by
    intro id hid hunmarked
    rw [worthAt]
    cases hrow : source.outboxEvents.find? id with
    | none => rfl
    | some e =>
      obtain ⟨event, hevent, rfl⟩ := List.mem_map.mp (List.mem_toFinset.mp hid)
      have hkey := Table.key_of_find? hrow
      refine absurd (List.mem_toFinset.mpr (List.mem_map.mpr ⟨e, List.mem_filter.mpr
        ⟨Table.mem_of_find? hrow, ?_⟩, hkey⟩)) hunmarked
      rw [hkey]
      exact (h.mem_processed.mp hevent).2
  calc m.db.grandTotal
      = ((processed (.ofMessages messages) m.db).map gain).sum := h.grandTotal_eq
    _ = (ids.map (worthAt source)).sum := by
        rw [List.map_map]
        exact congrArg List.sum (List.map_congr_left fun event he ↦
          gain_of_processed hcarries hreads he)
    _ = ((marked.map OutboxEvent.id).map (worthAt source)).sum := by
        rw [← List.sum_toFinset _ h.nodup, ← List.sum_toFinset _ hnodup]
        exact (Finset.sum_subset hsubset hothers).symm
    _ = (marked.map OutboxEvent.worth).sum := by
        rw [List.map_map]
        refine congrArg List.sum (List.map_congr_left fun e he ↦ ?_)
        rw [Function.comp_apply, worthAt, Table.find?_of_mem (List.mem_filter.mp he).1]
        rfl

end Analytics

variable {d : Deployment} {accounts : Table Account.id} {now now' : Js.Date} {s : SystemState}
variable {messages : List Json} {m : Analytics.SystemState}

/-- In every reachable state of the analytics worker on the events of a reachable state of the
engine, its counters, with what it has still to count, are the books of the engine. -/
theorem metrics_reconcile (hopening : ∀ a ∈ accounts.rows, 0 ≤ a.balance)
    (h : Runs d (initial accounts now) s)
    (hrows : ∀ e ∈ s.db.outboxEvents.rows, Zod.isUuid e.id = true ∧
      0 ≤ e.createdAt.getUTCFullYear ∧ e.createdAt.getUTCFullYear ≤ 9999)
    (hcarries : Analytics.Carries messages s.db)
    (hm : Analytics.Runs (.ofMessages messages) (Analytics.initial now') m) :
    m.db.grandTotal + s.db.backlog m.db = s.db.books := by
  have hc := consistent h
  obtain ⟨-, hnonneg⟩ := sound_balances hopening (sound h).evolved
  have hreads : ∀ e ∈ s.db.outboxEvents.rows, ∃ event, Reads e event := by
    intro e he
    obtain ⟨hid, hyear⟩ := hrows e he
    exact hc.reads hnonneg (reasoned h) (Table.find?_of_mem he) hid hyear
  have htallied := (Analytics.sound hm).tallied
  have hunmarked : s.db.backlog m.db = ((s.db.outboxEvents.rows.filter fun e ↦
      ¬ (m.db.processedEvents.find? (Analytics.CONSUMER_NAME, e.id)).isSome = true).map
        OutboxEvent.worth).sum := by
    refine congrArg (fun rows ↦ (rows.map OutboxEvent.worth).sum) (List.filter_congr fun e _ ↦ ?_)
    cases m.db.processedEvents.find? (Analytics.CONSUMER_NAME, e.id) <;> rfl
  have hsplit := List.sum_map_filter_add_sum_map_filter_not
    (fun e : OutboxEvent ↦
      (m.db.processedEvents.find? (Analytics.CONSUMER_NAME, e.id)).isSome = true)
    OutboxEvent.worth s.db.outboxEvents.rows
  rw [htallied.grandTotal_eq_marked hcarries hreads, hc.books_eq, hunmarked]
  simpa only [Bool.decide_eq_true] using hsplit

/-- A debit that has become final, of which the analytics worker has counted the completed event. -/
theorem metrics_reconcile_behind : ∃ s m,
    Sample.after (Sample.debit ++ Sample.post 1 1 ++ Sample.finalize 2 1 2) = some s ∧
      Relational.run (Analytics.begins (.ofMessages s.db.messages)) (Analytics.initial 0)
        (.start 0 (Sample.uuid 0) :: Analytics.Sample.execute 0 5) = some m ∧
      m.db.grandTotal = (1, 10, 0, 0) ∧ s.db.books = (1, 10, 1, 10) ∧
      m.db.grandTotal + s.db.backlog m.db = s.db.books := by
  have hrun : (do
      let s ← Sample.after (Sample.debit ++ Sample.post 1 1 ++ Sample.finalize 2 1 2)
      let m ← Relational.run (Analytics.begins (.ofMessages s.db.messages)) (Analytics.initial 0)
        (.start 0 (Sample.uuid 0) :: Analytics.Sample.execute 0 5)
      return (m.db.grandTotal, s.db.books, s.db.outboxEvents.rows.all fun e ↦ Zod.isUuid e.id &&
          decide (0 ≤ e.createdAt.getUTCFullYear ∧ e.createdAt.getUTCFullYear ≤ 9999))) =
      some ((1, 10, 0, 0), (1, 10, 1, 10), true) := by
    decide +kernel
  obtain ⟨s, hs, hrun⟩ := Option.bind_eq_some_iff.mp hrun
  obtain ⟨m, hm, hrun⟩ := Option.bind_eq_some_iff.mp hrun
  simp only [Option.pure_def, Option.some.injEq, Prod.mk.injEq] at hrun
  obtain ⟨htotal, hbooks, hall⟩ := hrun
  refine ⟨s, m, hs, hm, htotal, hbooks, ?_⟩
  refine metrics_reconcile (by decide) (Relational.runs_of_run hs) (fun e he ↦ ?_)
    (fun _ hmessage _ _ ↦ .inl hmessage) (Relational.runs_of_run hm)
  obtain ⟨hid, hyear⟩ := Bool.and_eq_true_iff.mp (List.all_eq_true.mp hall e he)
  exact ⟨hid, of_decide_eq_true hyear⟩

end Banking
