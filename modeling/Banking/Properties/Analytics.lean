import Banking.Refinement.Analytics

/-!
# Analytics totals

Whatever deliveries come in whatever order, the counters of an hour are the number and the amount
of the distinct processed events that occurred in it. `Date.UTC` takes the years 0 to 99 for 1900
to 1999, so this holds exactly as long as no processed event occurred in those years.
-/

namespace Banking.Analytics

open Js (Date)
open Relational (tally valuesAt)

/-! ### What the counters should be -/

/-- The amount in the payload of an event. -/
def amount (event : TransactionEvent) : Int :=
  match event.payload.lookup "amount" with
  | some (.str s) => Js.bigInt s
  | _ => 0

/-- The event is of the type and occurred in the hour that begins at `b`. -/
def occursIn (eventType : String) (b : Date) (event : TransactionEvent) : Bool :=
  event.eventType == eventType &&
    event.occurredDate.any fun t ↦ decide (b ≤ t) && decide (t < b + 3600000)

/-- The number and the amount of the events of a type that occurred in an hour. -/
def numberAndAmount (events : List TransactionEvent) (eventType : String) (b : Date) : Int × Int :=
  ((events.filter (occursIn eventType b)).length, ((events.filter (occursIn eventType b)).map
    amount).sum)

/-- The metrics are those of the distinct events that were processed. -/
structure Aggregated (topic : Topic) (s : SystemState) : Prop where
  /-- A delivery that returns has its event among the processed ones. -/
  returned : ∀ {i eventId born}, s.session i = some ⟨eventId, born, .done (.returned ())⟩ →
    ∃ e ∈ processed topic s.db, e.eventId = eventId
  /-- A processed event is an event of the topic, and one of its deliveries has committed. -/
  committed : ∀ e ∈ processed topic s.db,
    topic.event e.eventId = some e ∧ ∃ c ∈ s.log, c.call = e.eventId
  /-- No event is processed twice. -/
  distinct : ((processed topic s.db).map EventOf.eventId).Nodup
  /-- Buckets begin at full hours. -/
  hours : ∀ m ∈ s.db.analyticsMetrics.rows, (m.bucketStart : Int) % 3600000 = 0
  /-- The counters of every hour. -/
  counters : ∀ b : Date, (b : Int) % 3600000 = 0 →
    numberAndAmount (processed topic s.db) "TransactionCompleted" b =
        ((s.db.totals b).1, (s.db.totals b).2.1) ∧
      numberAndAmount (processed topic s.db) "TransactionFinalized" b =
        ((s.db.totals b).2.2.1, (s.db.totals b).2.2.2)
  /-- A history that has processed the same events ends with the same metrics. -/
  determined : ∀ {now' s'}, Runs topic (initial now') s' →
    (∀ e, e ∈ processed topic s'.db ↔ e ∈ processed topic s.db) →
    ∀ b, s'.db.analyticsMetrics.find? b = s.db.analyticsMetrics.find? b

/-- The event occurred in the years 0 to 99. -/
def HasTwoDigitYear (event : TransactionEvent) : Prop :=
  ∃ t, event.occurredDate = some t ∧ 0 ≤ t.getUTCFullYear ∧ t.getUTCFullYear ≤ 99

variable {topic : Topic} {now : Date} {s : SystemState} {event : TransactionEvent} {t b : Date}

/-! ### One event -/

/-- The text of an amount is the one of the payload. -/
private theorem amount_of_parsed {P : Type} {eventType : String} {keys : List String}
    {parse : (String → Option Json) → Option P} {parsed : EventOf P} {text : P → String}
    (hparse : ∀ {field p}, parse field = some p → field "amount" = some (.str (text p)))
    (h : eventSchema (Zod.literal eventType) (Zod.strictObject keys parse)
      (some event.toJson) = some parsed) :
    amount event = Js.bigInt (text parsed.payload) := by
  obtain ⟨-, -, hpayload⟩ := eventSchema_eq_some h
  change Zod.strictObject keys parse (some (.obj event.payload)) = _ at hpayload
  rw [Zod.strictObject] at hpayload
  split at hpayload
  · rw [amount, hparse hpayload]
  · cases hpayload

private theorem amount_completed {parsed : EventOf TransactionCompletedPayload}
    (h : transactionCompletedEventSchema (some event.toJson) = some parsed) :
    amount event = Js.bigInt parsed.payload.amount := by
  refine amount_of_parsed (fun {field p} hp ↦ ?_) h
  simp only [Option.bind_eq_bind, Option.bind_eq_some_iff, Option.pure_def] at hp
  obtain ⟨_, -, _, -, _, -, _, -, text, hamount, _, -, _, -, _, -, he⟩ := hp
  cases he
  obtain ⟨hstring, -⟩ := Zod.refine_eq_some.mp hamount
  exact Zod.string_eq_some.mp hstring

private theorem amount_finalized {parsed : EventOf TransactionFinalizedPayload}
    (h : transactionFinalizedEventSchema (some event.toJson) = some parsed) :
    amount event = Js.bigInt parsed.payload.amount := by
  refine amount_of_parsed (fun {field p} hp ↦ ?_) h
  simp only [Option.bind_eq_bind, Option.bind_eq_some_iff, Option.pure_def] at hp
  obtain ⟨_, -, _, -, _, -, _, -, text, hamount, _, -, he⟩ := hp
  cases he
  obtain ⟨hstring, -⟩ := Zod.refine_eq_some.mp hamount
  exact Zod.string_eq_some.mp hstring

private theorem exists_of_isSome {α β γ : Type} {x : Option α} {y : Option β} {f : α → β → γ}
    (h : (x.bind fun a ↦ y.map (f a)).isSome = true) :
    ∃ a b, x = some a ∧ y = some b ∧ (x.bind fun a ↦ y.map (f a)) = some (f a b) := by
  cases x with
  | none => cases h
  | some a =>
    cases y with
    | none => cases h
    | some b => exact ⟨a, b, rfl, rfl, rfl⟩

/-- What a completed event counts. -/
theorem counted_completed (htype : event.eventType = "TransactionCompleted")
    (h : (counted event).isSome = true) : ∃ t, event.occurredDate = some t ∧
      counted event = some (hourBucket t, 1, amount event, 0, 0) := by
  rw [counted, if_pos htype] at h ⊢
  obtain ⟨parsed, t, hparsed, hdate, hcounted⟩ := exists_of_isSome h
  exact ⟨t, hdate, by rw [hcounted, amount_completed hparsed]⟩

/-- What a finalized event counts. -/
theorem counted_finalized (htype : event.eventType = "TransactionFinalized")
    (h : (counted event).isSome = true) : ∃ t, event.occurredDate = some t ∧
      counted event = some (hourBucket t, 0, 0, 1, amount event) := by
  have hne : event.eventType ≠ "TransactionCompleted" := by simp [htype]
  rw [counted, if_neg hne, if_pos htype] at h ⊢
  obtain ⟨parsed, t, hparsed, hdate, hcounted⟩ := exists_of_isSome h
  exact ⟨t, hdate, by rw [hcounted, amount_finalized hparsed]⟩

/-- Other events count nothing. -/
theorem counted_other (h : ¬ IsCounted event) : counted event = none := by
  rw [counted, if_neg (not_or.mp h).1, if_neg (not_or.mp h).2]

/-- An event is counted in the bucket of an instant at which it occurred. -/
theorem counted_bucket {item : Date × Totals} (h : counted event = some item) :
    ∃ t, event.occurredDate = some t ∧ item.1 = hourBucket t := by
  have hsome : (counted event).isSome = true := by rw [h]; rfl
  by_cases hcompleted : event.eventType = "TransactionCompleted"
  · obtain ⟨t, hdate, hcounted⟩ := counted_completed hcompleted hsome
    exact ⟨t, hdate, by rw [← Option.some.inj (hcounted.symm.trans h)]⟩
  · by_cases hfinalized : event.eventType = "TransactionFinalized"
    · obtain ⟨t, hdate, hcounted⟩ := counted_finalized hfinalized hsome
      exact ⟨t, hdate, by rw [← Option.some.inj (hcounted.symm.trans h)]⟩
    · rw [counted_other (not_or.mpr ⟨hcompleted, hfinalized⟩)] at h
      cases h

private theorem floor_emod (t : Int) : (t - t % 3600000) % 3600000 = 0 := by
  omega

private theorem floor_bounds (t : Int) :
    t - t % 3600000 ≤ t ∧ t < t - t % 3600000 + 3600000 := by
  omega

private theorem floor_eq_iff {t b : Int} (hb : b % 3600000 = 0) :
    t - t % 3600000 = b ↔ b ≤ t ∧ t < b + 3600000 := by
  omega

/-- An instant is in the hour that its bucket begins, except in the years 0 to 99. -/
theorem hourBucket_eq_iff (hb : (b : Int) % 3600000 = 0)
    (hyear : ¬ (0 ≤ t.getUTCFullYear ∧ t.getUTCFullYear ≤ 99)) :
    hourBucket t = b ↔ b ≤ t ∧ t < b + 3600000 := by
  rw [hourBucket, Js.UTC_eq hyear]
  exact floor_eq_iff hb

/-- When an event of a type occurs in an hour. -/
theorem occursIn_eq (hdate : event.occurredDate = some t) (hb : (b : Int) % 3600000 = 0)
    (hyear : ¬ HasTwoDigitYear event) (eventType : String) :
    occursIn eventType b event = decide (event.eventType = eventType ∧ hourBucket t = b) := by
  have hiff := hourBucket_eq_iff hb fun h ↦ hyear ⟨t, hdate, h⟩
  by_cases htype : event.eventType = eventType <;>
    simp [occursIn, hdate, htype, hiff, Bool.decide_and]

/-! ### All events -/

private theorem numberAndAmount_cons (e : TransactionEvent) (events : List TransactionEvent)
    (eventType : String) (b : Date) :
    numberAndAmount (e :: events) eventType b =
      (if occursIn eventType b e then (1, amount e) else 0) +
        numberAndAmount events eventType b := by
  by_cases h : occursIn eventType b e = true
  · simp [numberAndAmount, h, add_comm]
  · simp [numberAndAmount, h]

/-- What the events of a list count for an hour, if none of them occurred in the years 0 to 99. -/
theorem numberAndAmount_eq (hb : (b : Int) % 3600000 = 0) {events : List TransactionEvent}
    (hcounted : ∀ e ∈ events, IsCounted e → (counted e).isSome = true)
    (hyears : ∀ e ∈ events, IsCounted e → ¬ HasTwoDigitYear e) :
    numberAndAmount events "TransactionCompleted" b =
        ((valuesAt (events.filterMap counted) b).sum.1,
          (valuesAt (events.filterMap counted) b).sum.2.1) ∧
      numberAndAmount events "TransactionFinalized" b =
        ((valuesAt (events.filterMap counted) b).sum.2.2.1,
          (valuesAt (events.filterMap counted) b).sum.2.2.2) := by
  induction events with
  | nil => exact ⟨rfl, rfl⟩
  | cons e events ih =>
    obtain ⟨hcounted_e, hcounted⟩ := List.forall_mem_cons.mp hcounted
    obtain ⟨hyears_e, hyears⟩ := List.forall_mem_cons.mp hyears
    obtain ⟨ih_completed, ih_finalized⟩ := ih hcounted hyears
    rw [numberAndAmount_cons, numberAndAmount_cons, List.filterMap_cons, ih_completed,
      ih_finalized]
    by_cases hcompleted : e.eventType = "TransactionCompleted"
    · obtain ⟨t, hdate, hadds⟩ := counted_completed hcompleted (hcounted_e (.inl hcompleted))
      have hoccurs := occursIn_eq hdate hb (hyears_e (.inl hcompleted))
      rw [hadds, hoccurs, hoccurs, hcompleted]
      dsimp only
      rw [Relational.valuesAt_cons]
      by_cases hk : hourBucket t = b <;> simp [hk]
    · by_cases hfinalized : e.eventType = "TransactionFinalized"
      · obtain ⟨t, hdate, hadds⟩ := counted_finalized hfinalized (hcounted_e (.inr hfinalized))
        have hoccurs := occursIn_eq hdate hb (hyears_e (.inr hfinalized))
        rw [hadds, hoccurs, hoccurs, hfinalized]
        dsimp only
        rw [Relational.valuesAt_cons]
        by_cases hk : hourBucket t = b <;> simp [hk, Prod.ext_iff]
      · rw [counted_other (not_or.mpr ⟨hcompleted, hfinalized⟩)]
        simp [occursIn, hcompleted, hfinalized]

/-! ### The processed events -/

/-- A processed event is an event of the topic and is marked. -/
theorem Tallied.mem_processed (h : Tallied topic s.db) :
    event ∈ processed topic s.db ↔ topic.event event.eventId = some event ∧
      (s.db.processedEvents.find? (CONSUMER_NAME, event.eventId)).isSome = true := by
  constructor
  · intro hmem
    obtain ⟨p, hp, hevent⟩ := List.mem_filterMap.mp hmem
    have hid := topic.eventId hevent
    rw [hid]
    refine ⟨hevent, ?_⟩
    rw [← h.consumer p hp, Relational.Table.find?_of_mem hp]
    rfl
  · rintro ⟨hevent, hsome⟩
    obtain ⟨p, hfind⟩ := Option.isSome_iff_exists.mp hsome
    have hkey := Relational.Table.key_of_find? hfind
    have hid : p.eventId = event.eventId := (Prod.mk.inj hkey).2
    exact List.mem_filterMap.mpr ⟨p, Relational.Table.mem_of_find? hfind, hid ▸ hevent⟩

/-- No event is processed twice. -/
theorem Tallied.nodup (h : Tallied topic s.db) :
    ((processed topic s.db).map EventOf.eventId).Nodup := by
  have hids : (processed topic s.db).map EventOf.eventId =
      s.db.processedEvents.rows.map ProcessedEvent.eventId := by
    rw [processed, List.map_filterMap, ← List.filterMap_eq_map]
    refine List.filterMap_congr fun p hp ↦ ?_
    obtain ⟨e, hevent⟩ := Option.isSome_iff_exists.mp (h.events p hp)
    rw [hevent, Option.map_some, topic.eventId hevent]
    rfl
  have hkeys : s.db.processedEvents.rows.map (fun p ↦ (p.consumerName, p.eventId)) =
      (s.db.processedEvents.rows.map ProcessedEvent.eventId).map (CONSUMER_NAME, ·) := by
    rw [List.map_map]
    exact List.map_congr_left fun p hp ↦ by rw [h.consumer p hp]; rfl
  rw [hids]
  exact List.Nodup.of_map _ (hkeys ▸ s.db.processedEvents.unique)

/-- A bucket was made for an event that occurred at an instant. -/
theorem Tallied.bucket (h : Tallied topic s.db) {m : AnalyticsMetric}
    (hm : s.db.analyticsMetrics.find? b = some m) : ∃ t, b = hourBucket t := by
  rw [h.buckets b] at hm
  obtain ⟨totals, htotals, -⟩ := Option.map_eq_some_iff.mp hm
  obtain ⟨value, hvalue⟩ := Relational.exists_of_tally htotals
  obtain ⟨e, -, hcounted⟩ := List.mem_filterMap.mp hvalue
  obtain ⟨t, -, hbucket⟩ := counted_bucket hcounted
  exact ⟨t, hbucket⟩

/-- Every bucket begins at a full hour. -/
theorem Tallied.hours (h : Tallied topic s.db) {m : AnalyticsMetric}
    (hm : m ∈ s.db.analyticsMetrics.rows) : (m.bucketStart : Int) % 3600000 = 0 := by
  obtain ⟨t, hbucket⟩ := h.bucket (Relational.Table.find?_of_mem hm)
  rw [hbucket]
  exact Js.UTC_emod _ _ _ _

/-- Two tallies of the same events have the same buckets. -/
theorem Tallied.determined {s' : SystemState} (h : Tallied topic s.db) (h' : Tallied topic s'.db)
    (hsame : ∀ e, e ∈ processed topic s'.db ↔ e ∈ processed topic s.db) (b : Date) :
    s'.db.analyticsMetrics.find? b = s.db.analyticsMetrics.find? b := by
  have hperm : (processed topic s'.db).Perm (processed topic s.db) :=
    (List.perm_ext_iff_of_nodup (List.Nodup.of_map _ h'.nodup) (List.Nodup.of_map _ h.nodup)).mpr
      hsame
  rw [h.buckets b, h'.buckets b, Relational.tally_perm (hperm.filterMap _) b]

/-- A delivery that returns has its event among the processed ones. -/
theorem processed_of_returned (h : Sound topic s) {i : Nat} {eventId : String} {born : Database}
    (hi : s.session i = some ⟨eventId, born, .done (.returned ())⟩) :
    ∃ e ∈ processed topic s.db, e.eventId = eventId := by
  obtain ⟨-, -, hbegins⟩ := h.born i _ hi
  obtain ⟨program, hprogram⟩ := Option.isSome_iff_exists.mp hbegins
  obtain ⟨e, hevent, -⟩ := Option.map_eq_some_iff.mp hprogram
  obtain rfl := topic.eventId hevent
  rcases h.done i _ born _ hi with hfailed | hends
  · cases hfailed
  · obtain ⟨b, a, hcommits, hmarked⟩ := hends rfl
    have hmem : (b, a) ∈ s.commitsOf i := hcommits ▸ List.mem_singleton_self _
    obtain ⟨c, hc, hpair⟩ := List.mem_map.mp hmem
    cases hpair
    obtain ⟨-, -, -, hlater⟩ := h.commits c (List.mem_filter.mp hc).1
    exact ⟨e, h.tallied.mem_processed.mpr ⟨hevent, Evolves.processed hlater hmarked⟩, rfl⟩

/-- One of the deliveries of a processed event has committed. -/
theorem committed_of_processed (h : Runs topic (initial now) s)
    (he : event ∈ processed topic s.db) : ∃ c ∈ s.log, c.call = event.eventId := by
  obtain ⟨-, hmarked⟩ := (sound h).tallied.mem_processed.mp he
  obtain ⟨c, hc, hbefore, hafter⟩ := Relational.exists_commit
    (P := fun db ↦ (db.processedEvents.find? (CONSUMER_NAME, event.eventId)).isSome = true)
    h Bool.false_ne_true hmarked
  refine ⟨c, hc, ?_⟩
  rcases (Relation.reflGen_iff _ _ _).mp ((sound h).commits c hc).2.1 with hsame | hcommits
  · exact absurd (hsame ▸ hafter) hbefore
  · obtain ⟨_, hfind⟩ := hcommits.find?_processed (CONSUMER_NAME, event.eventId)
    by_contra hne
    rw [hfind, if_neg fun hk ↦ hne (Prod.mk.inj hk).2] at hafter
    exact hbefore hafter

/-! ### Reachable states -/

/-- The metrics are right while no event that is counted occurred in the years 0 to 99. -/
theorem aggregated_of_years (h : Runs topic (initial now) s)
    (hyears : ∀ e ∈ processed topic s.db, IsCounted e → ¬ HasTwoDigitYear e) :
    Aggregated topic s where
  returned := processed_of_returned (sound h)
  committed := fun e he ↦
    ⟨((sound h).tallied.mem_processed.mp he).1, committed_of_processed h he⟩
  distinct := (sound h).tallied.nodup
  hours := fun _ hm ↦ (sound h).tallied.hours hm
  counters := by
    intro b hb
    have hsums := numberAndAmount_eq hb (sound h).tallied.counted hyears
    rw [← Relational.getD_tally, ← (sound h).tallied.totals] at hsums
    exact hsums
  determined := fun hs' hsame ↦ (sound h).tallied.determined (sound hs').tallied hsame

/-- An event of the years 0 to 99 is missing in its hour. -/
theorem not_aggregated (h : Runs topic (initial now) s) (he : event ∈ processed topic s.db)
    (hcounted : IsCounted event) (hyear : HasTwoDigitYear event) : ¬ Aggregated topic s := by
  intro haggregated
  obtain ⟨t, hdate, hyear⟩ := hyear
  obtain ⟨b, hb⟩ : ∃ b : Date, b = t - t % 3600000 := ⟨_, rfl⟩
  have hhour : (b : Int) % 3600000 = 0 := by
    rw [hb]
    exact floor_emod t
  have hin : b ≤ t ∧ t < b + 3600000 := by
    rw [hb]
    exact floor_bounds t
  have hnone : s.db.analyticsMetrics.find? b = none := by
    cases hm : s.db.analyticsMetrics.find? b with
    | none => rfl
    | some m =>
      obtain ⟨t', hbucket⟩ := (sound h).tallied.bucket hm
      exact absurd (hbucket.symm.trans hb) (Js.UTC_ne hyear)
  have htotals : s.db.totals b = 0 := by
    rw [Database.totals, hnone]
    rfl
  obtain ⟨hcompleted, hfinalized⟩ := haggregated.counters b hhour
  have hpositive : 0 < (numberAndAmount (processed topic s.db) event.eventType b).1 := by
    have hoccurs : occursIn event.eventType b event = true := by
      simp [occursIn, hdate, hin]
    exact Int.natCast_pos.mpr (List.length_pos_of_mem (List.mem_filter.mpr ⟨he, hoccurs⟩))
  rw [htotals] at hcompleted hfinalized
  rcases hcounted with htype | htype
  · rw [htype, hcompleted] at hpositive
    exact absurd hpositive (Int.lt_irrefl 0)
  · rw [htype, hfinalized] at hpositive
    exact absurd hpositive (Int.lt_irrefl 0)

/-- In every reachable state the metrics are those of the processed events, unless one that is
counted occurred in the years 0 to 99. -/
theorem totals_aggregated_iff (h : Runs topic (initial now) s) :
    Aggregated topic s ↔
      ∀ e ∈ processed topic s.db, IsCounted e → ¬ HasTwoDigitYear e :=
  ⟨fun haggregated _ he hcounted hyear ↦ not_aggregated h he hcounted hyear haggregated,
    aggregated_of_years h⟩

/-! ### Runs -/

namespace Sample

/-- A message about a credit of 250. -/
def message (eventId eventType occurredAt : String) : Json :=
  .obj [("eventId", .str eventId), ("eventType", .str eventType), ("eventVersion", .num 1),
    ("aggregateId", .str "tx-1"), ("transactionId", .str "tx-1"), ("occurredAt", .str occurredAt),
    ("payload", .obj [("type", .str eventType), ("transactionId", .str "tx-1"),
      ("accountId", .str "00000000-0000-4000-8000-000000000001"), ("txnType", .str "CREDIT"),
      ("amount", .str "250"), ("balanceAfter", .str "1250")])]

/-- The identifier of the completed event. -/
def completedId : String := "00000000-0000-4000-8000-00000000000a"

/-- The identifier of the finalized event. -/
def finalizedId : String := "00000000-0000-4000-8000-00000000000b"

/-- A transaction that is completed and finalized within one hour. -/
def recentTopic : Topic := .ofMessages
  [message completedId "TransactionCompleted" "2025-03-01T09:59:59.999Z",
    message finalizedId "TransactionFinalized" "2025-03-01T09:00:00Z"]

/-- A transaction that is completed in the year 50. -/
def ancientTopic : Topic := .ofMessages
  [message completedId "TransactionCompleted" "0050-01-01T00:30:00Z"]

/-- Process `i` executes `n` statements. -/
def execute (i n : Nat) : List SystemAction := List.replicate n (.exec i ())

/-- Two instances find the completed event unprocessed, one of them loses, and the retry finds it
processed. -/
def race : List SystemAction :=
  [.start 0 completedId, .start 1 completedId, .start 2 finalizedId] ++ execute 0 1 ++
    execute 1 1 ++ execute 2 5 ++ execute 0 4 ++ execute 1 3 ++ .start 3 completedId :: execute 3 3

/-- The years of the processed events. -/
def years (topic : Topic) (s : SystemState) : List (Option Int) :=
  (processed topic s.db).map fun e ↦ e.occurredDate.map Date.getUTCFullYear

end Sample

/-- Two deliveries of one event at once count it once. -/
theorem totals_aggregated_race : ∃ s,
    Relational.run (begins Sample.recentTopic) (initial 0) Sample.race = some s ∧
      s.db.totals (1740819600000 : Int) = (1, 250, 1, 250) ∧ Aggregated Sample.recentTopic s := by
  have hrun : (Relational.run (begins Sample.recentTopic) (initial 0) Sample.race).map
      (fun s ↦ (s.db.totals (1740819600000 : Int), Sample.years Sample.recentTopic s)) =
      some ((1, 250, 1, 250), [some 2025, some 2025]) := by
    decide +kernel
  obtain ⟨s, hs, htotals⟩ := Option.map_eq_some_iff.mp hrun
  obtain ⟨htotals, hyears⟩ := Prod.mk.inj htotals
  refine ⟨s, hs, htotals, (totals_aggregated_iff (Relational.runs_of_run hs)).mpr ?_⟩
  rintro e he - ⟨t, hdate, hyear⟩
  have hmem : some t.getUTCFullYear ∈ Sample.years Sample.recentTopic s :=
    List.mem_map.mpr ⟨e, he, by rw [hdate, Option.map_some]⟩
  rw [hyears] at hmem
  simp only [List.mem_cons, List.not_mem_nil, or_false, or_self, Option.some.injEq] at hmem
  omega

/-- An event of the year 50 is missing in its hour. -/
theorem totals_misplaced : ∃ s,
    Relational.run (begins Sample.ancientTopic) (initial 0)
      (.start 0 Sample.completedId :: Sample.execute 0 5) = some s ∧
      s.db.totals (-60589296000000 : Int) = 0 ∧ ¬ Aggregated Sample.ancientTopic s := by
  have hrun : (Relational.run (begins Sample.ancientTopic) (initial 0)
      (.start 0 Sample.completedId :: Sample.execute 0 5)).map
      (fun s ↦ (s.db.totals (-60589296000000 : Int),
        numberAndAmount (processed Sample.ancientTopic s.db) "TransactionCompleted"
          (-60589296000000 : Int))) = some (0, (1, 250)) := by
    decide +kernel
  obtain ⟨s, hs, hpair⟩ := Option.map_eq_some_iff.mp hrun
  obtain ⟨htotals, hnumber⟩ := Prod.mk.inj hpair
  refine ⟨s, hs, htotals, fun haggregated ↦ ?_⟩
  have hcompleted := (haggregated.counters (-60589296000000 : Int) (by decide)).1
  rw [hnumber, htotals] at hcompleted
  exact absurd hcompleted (by decide)

end Banking.Analytics
