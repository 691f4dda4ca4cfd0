import Banking.Atomic.Payloads
import Banking.Properties.Balance
import Banking.Properties.FraudFlags
import Banking.Refinement.Reasons

/-!
# Producers and consumers agree on the format of events

Every outbox row that the engine, its workers or the fraud worker write in the years 0000 to 9999
is read back as it was written, by the envelope and by the schema of its type, and the numbers in
its payload are those that its commit left in the tables.
-/

namespace Banking

open Js (Date)
open Relational (Table)

/-! ### Rows of the engine -/

section Engine

variable {input : CreateTransactionInput} {t : Transaction} {e : OutboxEvent} {db : Database}

/-- An event of a requested transaction is well formed. -/
private theorem Requested.wellFormed (hreq : Requested input t) {data : OutboxEventData}
    {fields : List (String × Json)}
    (htype : Js.trim data.eventType = data.eventType ∧ 1 ≤ Js.length data.eventType)
    (hversion : data.eventVersion = 1) (haggregate : data.aggregateId = t.transactionId)
    (htid : data.transactionId = t.transactionId) (hpayload : data.payload = .obj fields)
    (hrecord : Zod.record (some (.obj fields)) = some fields) : WellFormed data fields where
  eventType := Zod.trimmedString_str htype.1 htype.2
  eventVersion := hversion
  aggregateId := by
    rw [haggregate]
    exact (Zod.refine_eq_some.mp hreq.transactionId_accepted).1
  transactionId := by
    rw [htid]
    exact hreq.transactionId_accepted
  payload := hpayload
  recorded := hrecord

/-- Every row of a consistent database is read. -/
theorem Consistent.reads (hc : Consistent db) (hn : Nonneg db) (hr : Reasoned db) {id : String}
    (he : db.outboxEvents.find? id = some e) (hid : Zod.isUuid e.id = true)
    (hyear : 0 ≤ e.createdAt.getUTCFullYear ∧ e.createdAt.getUTCFullYear ≤ 9999) :
    ∃ event, Reads e event := by
  have htrim := trim_eventType (hc.eventType he)
  obtain ⟨t, ht, -, hfiled⟩ := hc.filed he
  cases hfiled with
  | completed hcompleted =>
    have hbalance := hn he hcompleted
    have htype := hcompleted.eventType
    obtain ⟨input, ip, hreq, hdata⟩ := hcompleted
    have hwell : WellFormed e.toOutboxEventData _ :=
      hreq.wellFormed htrim (by rw [hdata]; rfl) (by rw [hdata]; exact hreq.transactionId)
        (by rw [hdata]; exact hreq.transactionId) (by rw [hdata]; rfl) (by cases ip <;> rfl)
    refine ⟨_, hwell.reads hid hyear
      (fun _ ↦ ⟨_, completedEvent_accepted hreq hbalance, rfl⟩) ?_ ?_ ?_⟩
    all_goals simp [htype]
  | blocked hblocked =>
    have htype := hblocked.eventType
    obtain ⟨input, ip, reason, hreq, hdata⟩ := hblocked
    have hreason : Zod.trimmedString (some (.str reason)) = some reason := by
      obtain ⟨velocity, amount, hfield⟩ := hr he htype
      rw [hdata] at hfield
      obtain rfl := Json.str.inj (Option.some.inj hfield)
      cases velocity <;> cases amount <;> exact Zod.trimmedString_str (by decide) (by decide)
    have hwell : WellFormed e.toOutboxEventData _ :=
      hreq.wellFormed htrim (by rw [hdata]; rfl) (by rw [hdata]; exact hreq.transactionId)
        (by rw [hdata]; exact hreq.transactionId) (by rw [hdata]; rfl) (by cases ip <;> rfl)
    refine ⟨_, hwell.reads hid hyear
      ?_ (fun _ ↦ ⟨_, blockedEvent_accepted hreq hreason, rfl⟩) ?_ ?_⟩
    all_goals simp [htype]
  | ledgerUpdated hupdated =>
    have htype := hupdated.eventType
    obtain ⟨t, balance, l, ht, -, -, hbalance, hevent⟩ := hc.of_posted hn he (.inl htype)
    obtain ⟨input, hreq⟩ := hc.requested ht
    have hdata : IsLedgerUpdatedEvent t balance e := hevent.resolve_right fun hfinalized ↦ by
      simp [hfinalized.eventType] at htype
    have hwell : WellFormed e.toOutboxEventData _ :=
      hreq.wellFormed htrim (by rw [hdata]; rfl) (by rw [hdata]; rfl) (by rw [hdata]; rfl)
        (by rw [hdata]; rfl) rfl
    refine ⟨_, hwell.reads hid hyear
      ?_ ?_ (fun _ ↦ ⟨_, ledgerUpdatedEvent_accepted hreq hbalance, rfl⟩) ?_⟩
    all_goals simp [htype]
  | finalized hfinalized =>
    have htype := hfinalized.eventType
    obtain ⟨t, balance, l, ht, -, -, hbalance, hevent⟩ := hc.of_posted hn he (.inr htype)
    obtain ⟨input, hreq⟩ := hc.requested ht
    have hdata : IsFinalizedEvent t balance e := hevent.resolve_left fun hupdated ↦ by
      simp [hupdated.eventType] at htype
    have hwell : WellFormed e.toOutboxEventData _ :=
      hreq.wellFormed htrim (by rw [hdata]; rfl) (by rw [hdata]; rfl) (by rw [hdata]; rfl)
        (by rw [hdata]; rfl) rfl
    refine ⟨_, hwell.reads hid hyear
      ?_ ?_ ?_ (fun _ ↦ ⟨_, finalizedEvent_accepted hreq hbalance, rfl⟩)⟩
    all_goals simp [htype]
  | compensated hcompensated =>
    have htype := hcompensated.eventType
    obtain ⟨input, hreq⟩ := hc.requested ht
    obtain ⟨balance, hdata⟩ := hcompensated
    have hwell : WellFormed e.toOutboxEventData _ :=
      hreq.wellFormed htrim (by rw [hdata]; rfl) (by rw [hdata]; rfl) (by rw [hdata]; rfl)
        (by rw [hdata]; rfl) rfl
    refine ⟨_, hwell.reads hid hyear ?_ ?_ ?_ ?_⟩
    all_goals simp [htype]

end Engine

/-! ### Announcements of flags -/

namespace AsyncFraud

variable {source : Banking.Database} {partition : String → Nat} {e : OutboxEvent}

/-- A parsed payload names an account and a transaction that are accepted again. -/
theorem parsePayload_accepted {event : TransactionEvent} {payload : Payload}
    (h : parsePayload event = some payload) :
    Zod.isUuid payload.accountId = true ∧
      Zod.boundedString 100 (some (.str payload.transactionId)) = some payload.transactionId := by
  have hbounded : ∀ {v s}, Zod.boundedString 100 v = some s →
      Zod.boundedString 100 (some (.str s)) = some s := by
    intro v s hs
    obtain ⟨htrim, hlow, hhigh⟩ := Zod.boundedString_eq_some hs
    exact Zod.boundedString_str htrim hlow hhigh
  rw [parsePayload] at h
  split at h
  · obtain ⟨parsed, hparsed, rfl⟩ := Option.map_eq_some_iff.mp h
    obtain ⟨-, -, hbody⟩ := eventSchema_eq_some hparsed
    obtain ⟨fields, -, hbody⟩ := Zod.strictObject_eq_some hbody
    simp only [Option.bind_eq_bind, Option.bind_eq_some_iff, Option.pure_def] at hbody
    obtain ⟨_, -, tid, htid, account, haccount, _, -, _, -, _, -, _, -, _, -, he⟩ := hbody
    rw [← Option.some.inj he]
    exact ⟨(Zod.refine_eq_some.mp haccount).2, hbounded htid⟩
  · obtain ⟨parsed, hparsed, rfl⟩ := Option.map_eq_some_iff.mp h
    obtain ⟨-, -, hbody⟩ := eventSchema_eq_some hparsed
    obtain ⟨fields, -, hbody⟩ := Zod.strictObject_eq_some hbody
    simp only [Option.bind_eq_bind, Option.bind_eq_some_iff, Option.pure_def] at hbody
    obtain ⟨_, -, tid, htid, account, haccount, _, -, _, -, _, -, _, -, _, -, he⟩ := hbody
    rw [← Option.some.inj he]
    exact ⟨(Zod.refine_eq_some.mp haccount).2, hbounded htid⟩

/-- An announcement of an observed payload is read. -/
theorem reads_flagged {eventId : String} {o : Observation}
    (ho : observed source eventId = some o)
    (he : e.toOutboxEventData = accountFraudFlaggedEvent o.payload o.observedAt)
    (hid : Zod.isUuid e.id = true)
    (hyear : 0 ≤ e.createdAt.getUTCFullYear ∧ e.createdAt.getUTCFullYear ≤ 9999) :
    ∃ event, Reads e event := by
  obtain ⟨event, -, hobservation⟩ := Option.bind_eq_some_iff.mp ho
  have hrelevant := eventType_of_observation hobservation
  rw [observation, if_neg (by rintro ⟨hne, hne'⟩; exact hrelevant.elim hne hne')] at hobservation
  obtain ⟨payload, hparse, hobservation⟩ := Option.bind_eq_some_iff.mp hobservation
  obtain ⟨observedAt, -, rfl⟩ := Option.map_eq_some_iff.mp hobservation
  obtain ⟨huuid, htid⟩ := parsePayload_accepted hparse
  obtain ⟨htrim, hlength⟩ := Zod.trim_of_isUuid huuid
  have htype : e.eventType = "AccountFraudFlagged" := by rw [he]; rfl
  have hwell : WellFormed e.toOutboxEventData _ :=
    { eventType := by rw [htype]; exact Zod.trimmedString_str (by decide) (by decide)
      eventVersion := by rw [he]; rfl
      aggregateId := by rw [he]; exact Zod.trimmedString_str htrim hlength
      transactionId := by rw [he]; exact htid
      payload := by rw [he]; rfl
      recorded := rfl }
  refine ⟨_, hwell.reads hid hyear ?_ ?_ ?_ ?_⟩
  all_goals simp [htype]

/-- A commit adds announcements of observed payloads only. -/
theorem Commits.flagged {eventId : String} {own : Lock → Prop} {b a : Database}
    (h : Commits partition source eventId own b a) {id : String}
    (he : a.outboxEvents.find? id = some e) :
    b.outboxEvents.find? id = some e ∨ ∃ o, observed source eventId = some o ∧
      e.toOutboxEventData = accountFraudFlaggedEvent o.payload o.observedAt := by
  cases h with
  | @observe own b eventId o now hobserved hunobserved =>
    change (b.record o).toDatabase.outboxEvents.find? id = some e at he
    rw [Database.toDatabase_addSignals] at he
    exact .inl he
  | @flag own b eventId o now outboxId createdAt hobserved hunobserved hflaggable =>
    change ((b.record o).toDatabase.outboxEvents.insert _).find? id = some e at he
    rw [Database.toDatabase_addSignals] at he
    rcases Table.eq_or_of_find?_insert he with rfl | hold
    · exact .inr ⟨o, hobserved, rfl⟩
    · exact .inl hold

/-- Every row is one of the engine's or announces the flag of an observed payload. -/
theorem exists_observed {own : Lock → Prop} {db : Database}
    (h : Evolves partition source own { source with fraudSignals := .empty } db) {id : String}
    (he : db.outboxEvents.find? id = some e) :
    source.outboxEvents.find? id = some e ∨ ∃ eventId o, observed source eventId = some o ∧
      e.toOutboxEventData = accountFraudFlaggedEvent o.payload o.observedAt := by
  refine Relational.Evolves.invariant (P := fun db ↦ ∀ {e}, db.outboxEvents.find? id = some e →
    source.outboxEvents.find? id = some e ∨ ∃ eventId o, observed source eventId = some o ∧
      e.toOutboxEventData = accountFraudFlaggedEvent o.payload o.observedAt)
    (fun eventId b a hc hb {e} he ↦ ?_) h (fun he ↦ .inl he) he
  rcases hc.flagged he with hold | ⟨o, ho, hdata⟩
  · exact hb hold
  · exact .inr ⟨eventId, o, ho, hdata⟩

end AsyncFraud

/-! ### All rows -/

variable {d : Deployment} {accounts : Table Account.id} {now now' : Date} {s : SystemState}
  {partition : String → Nat} {f : AsyncFraud.SystemState} {e : OutboxEvent}

/-- Commits from non-negative opening balances overdraw no account and write no negative balance. -/
theorem sound_balances {own : Lock → Prop} {db : Database}
    (hopening : ∀ a ∈ accounts.rows, 0 ≤ a.balance)
    (h : Evolves d own (Database.opening accounts) db) : Solvent db ∧ Nonneg db :=
  Relational.Evolves.invariant (P := fun db ↦ Solvent db ∧ Nonneg db)
    (fun _ _ _ hc hb ↦ ⟨hb.1.step hc, Nonneg.step hb.2 hb.1 hc⟩) h
    ⟨fun _ a ha ↦ hopening a (Table.mem_of_find? ha), fun he ↦ by simp [Database.opening] at he⟩

/-- Every row of the engine was added by a commit that left the numbers of its payload. -/
theorem exists_holds (hopening : ∀ a ∈ accounts.rows, 0 ≤ a.balance)
    (h : Runs d (initial accounts now) s) (he : s.db.outboxEvents.find? e.id = some e) :
    ∃ c ∈ s.log, c.before.outboxEvents.find? e.id ≠ some e ∧
      c.after.outboxEvents.find? e.id = some e ∧ Holds c.after e := by
  obtain ⟨c, hc, hbefore, hafter⟩ := Relational.exists_commit
    (P := fun db ↦ db.outboxEvents.find? e.id = some e) h
    (by simp [initial, Relational.State.initial, Database.opening]) he
  refine ⟨c, hc, hbefore, hafter, ?_⟩
  obtain ⟨-, hcommit, hfrom, -⟩ := (sound h).commits c hc
  rcases (Relation.reflGen_iff _ _ _).mp hcommit with hsame | hcommit
  · exact absurd (hsame ▸ hafter) hbefore
  · obtain ⟨hsolvent, hnonneg⟩ := sound_balances hopening hfrom
    exact hcommit.holds ((Consistent.opening accounts).evolves hfrom) hsolvent hnonneg hbefore
      hafter

/-- Every row that a reachable state of the engine, and of the fraud worker on its events, has in
its outbox with a UUID and a time in the years 0000 to 9999 is read as it was written; its numbers
are those that its commit left, if it does not announce a flag. -/
theorem events_agree (hopening : ∀ a ∈ accounts.rows, 0 ≤ a.balance)
    (h : Runs d (initial accounts now) s)
    (hf : AsyncFraud.Runs partition (AsyncFraud.initial s.db now') f)
    (he : e ∈ f.db.outboxEvents.rows) (hid : Zod.isUuid e.id = true)
    (hyear : 0 ≤ e.createdAt.getUTCFullYear ∧ e.createdAt.getUTCFullYear ≤ 9999) :
    (∃ event, Reads e event) ∧ (e.eventType = "AccountFraudFlagged" ∨
      ∃ c ∈ s.log, c.before.outboxEvents.find? e.id ≠ some e ∧
        c.after.outboxEvents.find? e.id = some e ∧ Holds c.after e) := by
  have hc := consistent h
  have hevolved := (AsyncFraud.sound (AsyncFraud.keyed hc) hf).evolved
  rcases AsyncFraud.exists_observed hevolved (Table.find?_of_mem he) with
    hrow | ⟨eventId, o, ho, hdata⟩
  · obtain ⟨-, hnonneg⟩ := sound_balances hopening (sound h).evolved
    exact ⟨hc.reads hnonneg (reasoned h) hrow hid hyear, .inr (exists_holds hopening h hrow)⟩
  · exact ⟨AsyncFraud.reads_flagged ho hdata hid hyear, .inl (by rw [hdata]; rfl)⟩

/-- The events of six debits from one device, of which the last is blocked, and the announcement
that flags their account are read as they were written. -/
theorem events_agree_velocity : ∃ s f, Sample.after Sample.requests = some s ∧
    Relational.run (AsyncFraud.begins fun _ ↦ 0) (AsyncFraud.initial s.db 2000)
      AsyncFraud.Sample.deliveries = some f ∧
    f.db.outboxEvents.rows.map (fun e ↦ e.eventType) =
      List.replicate 5 "TransactionCompleted" ++ ["TransactionBlocked", "AccountFraudFlagged"] ∧
    ∀ e ∈ f.db.outboxEvents.rows, (∃ event, Reads e event) ∧
      (e.eventType = "AccountFraudFlagged" ∨
        ∃ c ∈ s.log, c.before.outboxEvents.find? e.id ≠ some e ∧
          c.after.outboxEvents.find? e.id = some e ∧ Holds c.after e) := by
  have hrun : (do
      let s ← Sample.after Sample.requests
      let f ← Relational.run (AsyncFraud.begins fun _ ↦ 0) (AsyncFraud.initial s.db 2000)
        AsyncFraud.Sample.deliveries
      return (f.db.outboxEvents.rows.map (fun e ↦ e.eventType),
        f.db.outboxEvents.rows.all fun e ↦ Zod.isUuid e.id &&
          decide (0 ≤ e.createdAt.getUTCFullYear ∧ e.createdAt.getUTCFullYear ≤ 9999))) =
      some (List.replicate 5 "TransactionCompleted" ++
        ["TransactionBlocked", "AccountFraudFlagged"], true) := by
    decide +kernel
  obtain ⟨s, hs, hrun⟩ := Option.bind_eq_some_iff.mp hrun
  obtain ⟨f, hf, hrun⟩ := Option.bind_eq_some_iff.mp hrun
  obtain ⟨htypes, hall⟩ := Prod.mk.inj (Option.some.inj hrun)
  refine ⟨s, f, hs, hf, htypes, fun e he ↦ ?_⟩
  obtain ⟨hid, hyear⟩ := Bool.and_eq_true_iff.mp (List.all_eq_true.mp hall e he)
  exact events_agree (by decide) (Relational.runs_of_run hs) (Relational.runs_of_run hf) he hid
    (of_decide_eq_true hyear)

/-- An event of the year 10000 has a UUID, and consumers reject it. -/
theorem event_of_year_10000_rejected : ∃ s,
    Relational.run (begins Sample.deployment) (initial Sample.accounts 253402300800000)
      Sample.debit = some s ∧
    ∃ e ∈ s.db.outboxEvents.rows, Zod.isUuid e.id = true ∧
      transactionEventSchema (some (serializeEvent e)) = none := by
  have hrun : (Relational.run (begins Sample.deployment)
      (initial Sample.accounts 253402300800000) Sample.debit).map (fun s ↦
        s.db.outboxEvents.rows.any fun e ↦ Zod.isUuid e.id &&
          (transactionEventSchema (some (serializeEvent e))).isNone) = some true := by
    decide +kernel
  obtain ⟨s, hs, hany⟩ := Option.map_eq_some_iff.mp hrun
  obtain ⟨e, he, hboth⟩ := List.any_eq_true.mp hany
  obtain ⟨hid, hnone⟩ := Bool.and_eq_true_iff.mp hboth
  exact ⟨s, hs, e, he, hid, Option.isNone_iff_eq_none.mp hnone⟩

end Banking
