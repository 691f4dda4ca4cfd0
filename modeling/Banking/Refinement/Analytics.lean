import Banking.Relational.Guarantee
import Banking.Relational.Tally
import Banking.Workers.Analytics
import Mathlib.Algebra.Group.Prod
import Mathlib.Algebra.Group.Int.Defs

/-!
# The analytics worker refines its commits

The abstract model of the worker: a commit marks one event as processed and adds what it counts to
one bucket, so the buckets are the tally of the processed events. The statements of the handler
commit nothing else, however deliveries interleave.
-/

namespace Banking.Analytics

open Js (Date)
open Relational (Outcome Safe Table Tx tally)

/-! ### Counters -/

/-- Number and amount of the completed, then of the finalized transactions. -/
abbrev Totals := Int × Int × Int × Int

/-- The counters of a metric. -/
def AnalyticsMetric.totals (m : AnalyticsMetric) : Totals :=
  (m.completedCount, m.completedAmount, m.finalizedCount, m.finalizedAmount)

/-- The metric of a bucket with the given counters. -/
def AnalyticsMetric.ofTotals (bucketStart : Date) (t : Totals) : AnalyticsMetric :=
  ⟨bucketStart, t.1, t.2.1, t.2.2.1, t.2.2.2⟩

/-- Counters do not change the bucket. -/
@[simp] theorem AnalyticsMetric.bucketStart_ofTotals (bucketStart : Date) (t : Totals) :
    (ofTotals bucketStart t).bucketStart = bucketStart := rfl

/-- The counters of a bucket, zero if there is no row. -/
def Database.totals (db : Database) (bucketStart : Date) : Totals :=
  ((db.analyticsMetrics.find? bucketStart).map AnalyticsMetric.totals).getD 0

/-- Add to the counters of a bucket. -/
def Database.add (bucketStart : Date) (delta : Totals) : Database → Database :=
  Database.upsertMetric bucketStart (.ofTotals bucketStart delta)
    (fun m ↦ .ofTotals m.bucketStart (m.totals + delta))
    (fun m ↦ AnalyticsMetric.bucketStart_ofTotals m.bucketStart (m.totals + delta))

/-- The bucket that an event is counted in and what it adds there. -/
def counted (event : TransactionEvent) : Option (Date × Totals) :=
  if event.eventType = "TransactionCompleted" then
    (transactionCompletedEventSchema (some event.toJson)).bind fun parsed ↦
      event.occurredDate.map fun t ↦ (hourBucket t, 1, Js.bigInt parsed.payload.amount, 0, 0)
  else if event.eventType = "TransactionFinalized" then
    (transactionFinalizedEventSchema (some event.toJson)).bind fun parsed ↦
      event.occurredDate.map fun t ↦ (hourBucket t, 0, 0, 1, Js.bigInt parsed.payload.amount)
  else none

/-- Add what an event counts. -/
def Database.count (event : TransactionEvent) (db : Database) : Database :=
  match counted event with
  | some (bucketStart, delta) => db.add bucketStart delta
  | none => db

/-- The event is of a type that is counted. -/
def IsCounted (event : TransactionEvent) : Prop :=
  event.eventType = "TransactionCompleted" ∨ event.eventType = "TransactionFinalized"

/-! ### Statements -/

namespace Database

variable {db : Database}

/-- An upsert writes the row of its bucket only. -/
theorem find?_upsertMetric {bucketStart : Date} {create : AnalyticsMetric}
    {update : AnalyticsMetric → AnalyticsMetric}
    {hupdate : ∀ m, (update m).bucketStart = m.bucketStart}
    (hcreate : create.bucketStart = bucketStart) (k : Date) :
    (db.upsertMetric bucketStart create update hupdate).analyticsMetrics.find? k =
      if bucketStart = k then
        some (((db.analyticsMetrics.find? bucketStart).map update).getD create)
      else db.analyticsMetrics.find? k := by
  subst hcreate
  rw [upsertMetric]
  cases hfound : db.analyticsMetrics.find? create.bucketStart with
  | none => exact Table.find?_insert hfound k
  | some m =>
    refine (Table.find?_modify _ _ update hupdate k).trans ?_
    rw [hfound]
    by_cases hk : create.bucketStart = k
    · rw [if_pos hk.symm, if_pos hk]
      rfl
    · rw [if_neg (Ne.symm hk), if_neg hk]

/-- Adding to a bucket changes its counters only. -/
theorem find?_add (bucketStart : Date) (delta : Totals) (k : Date) :
    (db.add bucketStart delta).analyticsMetrics.find? k =
      if bucketStart = k then some (.ofTotals k (db.totals k + delta))
      else db.analyticsMetrics.find? k := by
  rw [add, find?_upsertMetric (AnalyticsMetric.bucketStart_ofTotals _ _)]
  by_cases hk : bucketStart = k
  · subst hk
    rw [if_pos rfl, if_pos rfl, totals]
    cases hfound : db.analyticsMetrics.find? bucketStart with
    | none =>
      exact congrArg (fun t ↦ some (AnalyticsMetric.ofTotals bucketStart t)) (zero_add _).symm
    | some m => simp [Table.key_of_find? hfound]
  · rw [if_neg hk, if_neg hk]

/-- Counting leaves the processed events alone. -/
@[simp] theorem processedEvents_count (event : TransactionEvent) :
    (db.count event).processedEvents = db.processedEvents := by
  rw [count]
  cases counted event <;> rfl

end Database

/-- The upsert of a completed transaction adds one transaction and its amount. -/
theorem upsertCompleted_write (t : Date) (amount : Int) (env : Relational.Env Unit)
    (view : Database) :
    (upsertCompleted t amount).write env view = Database.add (hourBucket t) (1, amount, 0, 0) := by
  have hupdate : (fun m : AnalyticsMetric ↦ { m with
      completedCount := m.completedCount + 1, completedAmount := m.completedAmount + amount }) =
      fun m ↦ .ofTotals m.bucketStart (m.totals + (1, amount, 0, 0)) := by
    funext m
    simp [AnalyticsMetric.ofTotals, AnalyticsMetric.totals]
  unfold upsertCompleted Sql.upsertMetric Database.add
  simp only [hupdate]
  rfl

/-- The upsert of a finalized transaction adds one transaction and its amount. -/
theorem upsertFinalized_write (t : Date) (amount : Int) (env : Relational.Env Unit)
    (view : Database) :
    (upsertFinalized t amount).write env view = Database.add (hourBucket t) (0, 0, 1, amount) := by
  have hupdate : (fun m : AnalyticsMetric ↦ { m with
      finalizedCount := m.finalizedCount + 1, finalizedAmount := m.finalizedAmount + amount }) =
      fun m ↦ .ofTotals m.bucketStart (m.totals + (0, 0, 1, amount)) := by
    funext m
    simp [AnalyticsMetric.ofTotals, AnalyticsMetric.totals]
  unfold upsertFinalized Sql.upsertMetric Database.add
  simp only [hupdate]
  rfl

/-- Looking up a processed event changes nothing. -/
theorem Sql.findProcessedEvent_reads (consumerName eventId : String) :
    (Sql.findProcessedEvent consumerName eventId).Reads :=
  ⟨fun _ _ ↦ rfl, fun _ _ ↦ rfl, fun _ _ ↦ rfl⟩

/-- An event is marked once. -/
theorem Sql.createProcessedEvent_result {consumerName eventId : String} {u : Unit}
    {env : Relational.Env Unit} {db : Database}
    (h : (Sql.createProcessedEvent consumerName eventId).result env db = some u) :
    db.processedEvents.find? (consumerName, eventId) = none := by
  simp only [Sql.createProcessedEvent] at h
  split at h
  · next hc => exact Option.isNone_iff_eq_none.mp hc
  · cases h

/-! ### Single commits -/

/-- What one commit of a delivery does, made by a process that owns the locks `own`. -/
inductive Commits (topic : Topic) : String → (Lock → Prop) → Database → Database → Prop
  | process {own b event now} (hevent : topic.event event.eventId = some event)
      (hcounted : IsCounted event → (counted event).isSome)
      (hfresh : b.processedEvents.find? (CONSUMER_NAME, event.eventId) = none)
      (hlock : own (.processedEvent CONSUMER_NAME event.eventId)) :
      Commits topic event.eventId own b
        ((b.count event).addProcessedEvent ⟨event.eventId, CONSUMER_NAME, now⟩)

variable {topic : Topic} {eventId : String} {own : Lock → Prop} {b a db db' : Database}
  {event : TransactionEvent}

/-- Owning more locks forbids no commit. -/
theorem commits_mono (topic : Topic) : Relational.LockMonotone (Commits topic) := by
  intro eventId own own' b a ho h
  cases h with
  | process hevent hcounted hfresh hlock => exact .process hevent hcounted hfresh (ho _ hlock)

/-- A commit marks its event, and keeps the marks. -/
theorem Commits.find?_processed (h : Commits topic eventId own b a) (k : String × String) :
    ∃ now, a.processedEvents.find? k =
      if (CONSUMER_NAME, eventId) = k then some ⟨eventId, CONSUMER_NAME, now⟩
      else b.processedEvents.find? k := by
  cases h with
  | @process own b event now hevent hcounted hfresh hlock =>
    refine ⟨now, ?_⟩
    rw [Database.addProcessedEvent, Database.processedEvents_count]
    exact Table.find?_insert (r := ProcessedEvent.mk event.eventId CONSUMER_NAME now) hfresh k

/-- What the commits of others can make of a database. -/
abbrev Evolves (topic : Topic) : (Lock → Prop) → Database → Database → Prop :=
  Relational.Evolves (Commits topic)

/-- A marked event stays marked. -/
theorem Evolves.processed (he : Evolves topic own db db') {k : String × String}
    (h : (db.processedEvents.find? k).isSome = true) :
    (db'.processedEvents.find? k).isSome = true := by
  refine Relational.Evolves.invariant
    (P := fun db ↦ (db.processedEvents.find? k).isSome = true) (fun _ b a hc hb ↦ ?_) he h
  obtain ⟨now, hfind⟩ := hc.find?_processed k
  rw [hfind]
  split
  · rfl
  · exact hb

/-- An event is marked under its lock only. -/
theorem Evolves.unprocessed (he : Evolves topic own db db') {k : String × String}
    (h : db.processedEvents.find? k = none) (hlock : ¬ own (.processedEvent k.1 k.2)) :
    db'.processedEvents.find? k = none := by
  refine Relational.Evolves.invariant (P := fun db ↦ db.processedEvents.find? k = none)
    (fun _ b a hc hb ↦ ?_) he h
  cases hc with
  | @process _ b event now hevent hcounted hfresh hown =>
    have hne : (CONSUMER_NAME, event.eventId) ≠ k := by
      rintro rfl
      exact hlock hown
    rw [Database.addProcessedEvent, Database.processedEvents_count]
    exact (Table.find?_insert_of_ne (r := ProcessedEvent.mk event.eventId CONSUMER_NAME now) _
      hne).trans hb

/-! ### The handler -/

/-- A delivery that returned found its event marked, or marked it. -/
def Ends (eventId : String) (_ : Database) (outcome : Outcome Unit)
    (hist : List (Database × Database)) : Prop :=
  outcome = .returned () →
    ∃ b a, hist = [(b, a)] ∧ (a.processedEvents.find? (CONSUMER_NAME, eventId)).isSome = true

variable {born : Database} {now : Int}

/-- The end of the transaction: the event is marked, and what it counts is added. -/
private theorem safe_mark {pending : Database → Database}
    (hpending : pending = Database.count event)
    (hevent : topic.event event.eventId = some event)
    (hcounted : IsCounted event → (counted event).isSome) :
    Safe (Commits topic) event.eventId (Ends event.eventId born)
      (Tx.query (Sql.createProcessedEvent CONSUMER_NAME event.eventId) >>=
        fun u ↦ (.commit (.pure u) : Process Unit)) own pending [] now db := by
  subst hpending
  refine Safe.query_bind (fun now₁ db₁ _ _ _ _ hr₁ ↦ ?_) (fun _ _ _ _ _ _ h ↦ nomatch h)
  refine Safe.commit_pure fun db₂ he₂ ↦ ?_
  have hlock : Lock.processedEvent CONSUMER_NAME event.eventId ∈
      (Sql.createProcessedEvent CONSUMER_NAME event.eventId).locks ⟨now₁, ()⟩
        (db₁.count event) := List.mem_singleton_self _
  have hfresh₁ := Sql.createProcessedEvent_result hr₁
  rw [Database.processedEvents_count] at hfresh₁
  have hfresh₂ := Evolves.unprocessed he₂ hfresh₁ fun hn ↦ hn (.inr hlock)
  have hcommit : Commits topic event.eventId (fun l ↦ own l ∨ l ∈
      (Sql.createProcessedEvent CONSUMER_NAME event.eventId).locks ⟨now₁, ()⟩ (db₁.count event))
      db₂ ((db₂.count event).addProcessedEvent ⟨event.eventId, CONSUMER_NAME, now₁⟩) :=
    .process hevent hcounted hfresh₂ (.inr hlock)
  refine ⟨.single hcommit, fun _ ↦ ⟨_, _, rfl, ?_⟩⟩
  obtain ⟨_, hfind⟩ := hcommit.find?_processed (CONSUMER_NAME, event.eventId)
  have := congrArg Option.isSome hfind
  rwa [if_pos rfl] at this

/-- Whatever commits in between, a delivery commits the processing of its event only. -/
theorem safe_handleEvent (hevent : topic.event event.eventId = some event) :
    Safe (Commits topic) event.eventId (Ends event.eventId born) (handleEvent event)
      (fun _ ↦ False) id [] now db := by
  rw [handleEvent, Tx.transaction, Tx.bind_assoc]
  refine Safe.read_bind (Sql.findProcessedEvent_reads _ _) fun now₁ db₁ _ _ he₁ found hr₁ ↦ ?_
  cases found with
  | some p =>
    have hfound : db₁.processedEvents.find? (CONSUMER_NAME, event.eventId) = some p :=
      Option.some.inj hr₁
    refine Safe.commit_unchanged fun db₂ he₂ _ ↦ ⟨_, _, rfl, Evolves.processed he₂ ?_⟩
    rw [hfound]
    rfl
  | none =>
    have hthrow : Ends event.eventId born .threw [] := fun h ↦ nomatch h
    dsimp only
    rw [Tx.bind_assoc, aggregate]
    split
    · next htype =>
      split
      · next parsed t hparsed hdate =>
        have hcounted : counted event =
            some (hourBucket t, 1, Js.bigInt parsed.payload.amount, 0, 0) := by
          rw [counted, if_pos htype, hparsed, hdate]
          rfl
        refine Safe.query_bind (fun _ _ _ _ _ _ _ ↦ ?_) (fun _ _ _ _ _ _ ↦ hthrow)
        refine safe_mark ?_ hevent fun _ ↦ by rw [hcounted]; rfl
        funext db
        rw [upsertCompleted_write, Database.count, hcounted]
        rfl
      · exact hthrow
    · next hcompleted =>
      split
      · next htype =>
        split
        · next parsed t hparsed hdate =>
          have hcounted : counted event =
              some (hourBucket t, 0, 0, 1, Js.bigInt parsed.payload.amount) := by
            rw [counted, if_neg hcompleted, if_pos htype, hparsed, hdate]
            rfl
          refine Safe.query_bind (fun _ _ _ _ _ _ _ ↦ ?_) (fun _ _ _ _ _ _ ↦ hthrow)
          refine safe_mark ?_ hevent fun _ ↦ by rw [hcounted]; rfl
          funext db
          rw [upsertFinalized_write, Database.count, hcounted]
          rfl
        · exact hthrow
      · next hfinalized =>
        refine safe_mark ?_ hevent fun h ↦ absurd h (not_or.mpr ⟨hcompleted, hfinalized⟩)
        funext db
        rw [Database.count, counted, if_neg hcompleted, if_neg hfinalized]
        rfl

/-! ### The system -/

/-- Every delivery is safe from where it starts. -/
theorem safe_begins (eventId : String) (db : Database) (program : Process Unit) (now : Int)
    (hb : begins topic eventId db = some program) :
    Safe (Commits topic) eventId (Ends eventId db) program (fun _ ↦ False) id [] now db := by
  obtain ⟨event, hevent, rfl⟩ := Option.map_eq_some_iff.mp hb
  obtain rfl := topic.eventId hevent
  exact safe_handleEvent hevent

/-- What holds of a reachable state. -/
abbrev Sound (topic : Topic) : SystemState → Prop :=
  Relational.Sound (begins topic) (Commits topic) Ends ⟨.empty, .empty⟩

variable {s : SystemState}

/-- Every reachable state is sound. -/
theorem sound (h : Runs topic (initial now) s) : Sound topic s :=
  (Relational.Sound.initial now).runs (commits_mono topic)
    (fun eventId db program now _ hb ↦ safe_begins eventId db program now hb) h

/-! ### The buckets are a tally -/

/-- The events that are marked as processed. -/
def processed (topic : Topic) (db : Database) : List TransactionEvent :=
  db.processedEvents.rows.filterMap fun p ↦ topic.event p.eventId

/-- The buckets hold the tally of the processed events, all of which could be counted. -/
structure Tallied (topic : Topic) (db : Database) : Prop where
  consumer : ∀ p ∈ db.processedEvents.rows, p.consumerName = CONSUMER_NAME
  events : ∀ p ∈ db.processedEvents.rows, (topic.event p.eventId).isSome = true
  counted : ∀ e ∈ processed topic db, IsCounted e → (counted e).isSome = true
  buckets : ∀ k, db.analyticsMetrics.find? k =
    (tally ((processed topic db).filterMap Analytics.counted) k).map (.ofTotals k)

/-- Without processed events there are no buckets. -/
theorem Tallied.empty : Tallied topic ⟨.empty, .empty⟩ where
  consumer := by simp
  events := by simp
  counted := by simp [processed]
  buckets := fun _ ↦ rfl

/-- The counters of a bucket are its sum. -/
theorem Tallied.totals (h : Tallied topic db) (k : Date) :
    db.totals k = (tally ((processed topic db).filterMap Analytics.counted) k).getD 0 := by
  rw [Database.totals, h.buckets k, Option.map_map]
  cases tally ((processed topic db).filterMap Analytics.counted) k <;> rfl

/-- A commit keeps the tally. -/
theorem Commits.tallied (hc : Commits topic eventId own b a) (h : Tallied topic b) :
    Tallied topic a := by
  cases hc with
  | @process own b event now hevent hcounted hfresh hlock =>
    have hrows : ((b.count event).addProcessedEvent
        ⟨event.eventId, CONSUMER_NAME, now⟩).processedEvents.rows =
        b.processedEvents.rows ++ [⟨event.eventId, CONSUMER_NAME, now⟩] := by
      rw [Database.addProcessedEvent, Database.processedEvents_count]
      exact Table.rows_insert (r := ProcessedEvent.mk event.eventId CONSUMER_NAME now) hfresh
    have hprocessed : processed topic ((b.count event).addProcessedEvent
        ⟨event.eventId, CONSUMER_NAME, now⟩) = processed topic b ++ [event] := by
      simp [processed, hrows, hevent]
    refine ⟨?_, ?_, ?_, fun k ↦ ?_⟩
    · rw [hrows]
      exact List.forall_mem_append.mpr ⟨h.consumer, by simp⟩
    · rw [hrows]
      exact List.forall_mem_append.mpr ⟨h.events, by simp [hevent]⟩
    · rw [hprocessed]
      exact List.forall_mem_append.mpr ⟨h.counted, by simpa using hcounted⟩
    · rw [hprocessed, List.filterMap_append]
      change (b.count event).analyticsMetrics.find? k = _
      cases hadds : counted event with
      | none => simpa [Database.count, hadds] using h.buckets k
      | some item =>
        have hadd : (b.count event).analyticsMetrics.find? k =
            (b.add item.1 item.2).analyticsMetrics.find? k := by
          rw [Database.count, hadds]
        rw [hadd, Database.find?_add, List.filterMap_cons, hadds]
        dsimp only
        rw [List.filterMap_nil, Relational.tally_concat, h.totals]
        split
        · rfl
        · exact h.buckets k

/-- In every reachable state the buckets are the tally of the processed events. -/
theorem Sound.tallied (h : Sound topic s) : Tallied topic s.db :=
  Relational.Evolves.invariant (P := Tallied topic) (fun _ _ _ hc ↦ hc.tallied) h.evolved .empty

end Banking.Analytics
