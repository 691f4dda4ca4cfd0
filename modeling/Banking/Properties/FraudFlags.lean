import Banking.Atomic.Journal
import Banking.Refinement.AsyncFraud
import Banking.Refinement.System

/-!
# Fraud flags are sound and raised once

However the deliveries to the fraud worker interleave, replay and fail, as long as those of one
partition take turns: an account is flagged if and only if one announcement of it exists, the flag
stays, and the signals that justify it stay.
-/

namespace Banking.AsyncFraud

open Js (Date)
open Relational (Table)

/-! ### What the engine publishes -/

variable {source : Banking.Database} {eventId : String} {o : Observation}

/-- What a payload says of its transaction. -/
private theorem parsePayload_spec {event : TransactionEvent} {payload : Payload} {e : OutboxEvent}
    {t : Transaction} (hparse : parsePayload event = some payload)
    (htype : event.eventType = e.eventType) (hpayload : e.payload = .obj event.payload)
    (hdecided : (∃ balance, IsCompletedEvent t balance e) ∨ IsBlockedEvent t e) :
    payload.transactionId = t.transactionId ∧ payload.accountId = t.accountId ∧
      e.partitionKey = t.accountId := by
  rcases hdecided with ⟨balance, hcompleted⟩ | hblocked
  · rw [parsePayload, if_pos (htype.trans hcompleted.eventType)] at hparse
    obtain ⟨parsed, hparsed, rfl⟩ := Option.map_eq_some_iff.mp hparse
    obtain ⟨-, -, hbody⟩ := eventSchema_eq_some hparsed
    obtain ⟨input, ip, hreq, hdata⟩ := hcompleted
    have hbody : transactionCompletedPayloadSchema
        (some (completedEvent input t balance ip).payload) = some parsed.payload := by
      rw [← hdata, hpayload]
      exact hbody
    obtain ⟨-, hmove⟩ := completedEvent_parsed hreq hbody
    refine ⟨congrArg TransactionCompletedPayload.transactionId hmove,
      congrArg TransactionCompletedPayload.accountId hmove, ?_⟩
    rw [hdata]
    exact hreq.accountId
  · have hne : event.eventType ≠ "TransactionCompleted" := by
      simp [htype.trans hblocked.eventType]
    rw [parsePayload, if_neg hne] at hparse
    obtain ⟨parsed, hparsed, rfl⟩ := Option.map_eq_some_iff.mp hparse
    obtain ⟨-, -, hbody⟩ := eventSchema_eq_some hparsed
    obtain ⟨input, ip, reason, hreq, hdata⟩ := hblocked
    have hbody : transactionBlockedPayloadSchema
        (some (blockedEvent input t ip reason).payload) = some parsed.payload := by
      rw [← hdata, hpayload]
      exact hbody
    obtain ⟨htid, haccount⟩ := blockedEvent_parsed hreq hbody
    refine ⟨htid, haccount, ?_⟩
    rw [hdata]
    exact hreq.accountId

/-- What is observed is the completed or blocked event of a transaction. -/
theorem observed_spec (hc : Consistent source) (ho : observed source eventId = some o) :
    ∃ e t, source.outboxEvents.find? eventId = some e ∧
      source.transactions.find? t.transactionId = some t ∧ e.transactionId = t.transactionId ∧
      (e.eventType = "TransactionCompleted" ∨ e.eventType = "TransactionBlocked") ∧
      o.payload.transactionId = t.transactionId ∧ o.payload.accountId = t.accountId ∧
      e.partitionKey = t.accountId := by
  obtain ⟨event, hdelivered, hobservation⟩ := Option.bind_eq_some_iff.mp ho
  obtain ⟨e, he, -, htype, hpayload⟩ := hc.delivered hdelivered
  have hrelevant := eventType_of_observation hobservation
  rw [observation, if_neg (by rintro ⟨hne, hne'⟩; exact hrelevant.elim hne hne')] at hobservation
  obtain ⟨payload, hparse, hobservation⟩ := Option.bind_eq_some_iff.mp hobservation
  obtain ⟨observedAt, -, rfl⟩ := Option.map_eq_some_iff.mp hobservation
  rw [htype] at hrelevant
  obtain ⟨t, ht, hkey, hfiled⟩ := hc.filed he
  have hdecided : (∃ balance, IsCompletedEvent t balance e) ∨ IsBlockedEvent t e := by
    cases hfiled with
    | completed h => exact .inl ⟨_, h⟩
    | blocked h => exact .inr h
    | ledgerUpdated h => simp [h.eventType] at hrelevant
    | finalized h => simp [h.eventType] at hrelevant
    | compensated h => simp [h.eventType] at hrelevant
  obtain ⟨htid, haccount, hpartition⟩ := parsePayload_spec hparse htype hpayload hdecided
  exact ⟨e, t, he, ht, hkey.symm, hrelevant, htid, haccount, hpartition⟩

/-- Events are published under the key of the account. -/
theorem keyed (hc : Consistent source) : Keyed source := by
  intro id e o he ho
  obtain ⟨e', t, he', -, -, -, -, haccount, hpartition⟩ := observed_spec hc ho
  obtain rfl := Option.some.inj (he.symm.trans he')
  rw [hpartition, haccount]

/-- A transaction is observed through one event. -/
theorem single (hc : Consistent source) : Single source := by
  intro eventId eventId' o o' ho ho' hsame
  obtain ⟨e, t, he, -, hkey, htype, htid, -⟩ := observed_spec hc ho
  obtain ⟨e', t', he', -, hkey', htype', htid', -⟩ := observed_spec hc ho'
  have hrecord : e.transactionId = e'.transactionId := by
    rw [hkey, hkey', ← htid, ← htid', hsame]
  have hmem' : e' ∈ (source.record e.transactionId).events := hrecord ▸ Database.mem_trail he'
  obtain rfl := (hc.stage e.transactionId).decided_unique (Database.mem_trail he) htype hmem' htype'
  rw [← Table.key_of_find? he, ← Table.key_of_find? he']

/-! ### What a flag rests on -/

/-- The announcements that an account was flagged. -/
def flaggedEvents (db : Database) (accountId : String) : List OutboxEvent :=
  db.outboxEvents.rows.filter fun e ↦
    decide (e.eventType = "AccountFraudFlagged") && isAccountPayload accountId e.payload

/-- The account was flagged when one of its transactions was observed, on evidence to which that
transaction belongs. -/
structure Justified (source : Banking.Database) (db : Database) (accountId : String)
    (o : Observation) (signal : Signal) : Prop where
  observed : ∃ eventId, observed source eventId = some o
  account : o.payload.accountId = accountId
  row : db.fraudSignals.find? (o.row signal).key = some (o.row signal)
  evidence : Evidence db signal o.observedAt

/-- An account is not flagged and not announced, or justly flagged and announced once. -/
inductive FlagState (source : Banking.Database) (db : Database) (accountId : String) : Prop
  | clear (hflag : flaggedAt db accountId = none) (hevents : flaggedEvents db accountId = [])
  | flagged {o signal e} (hflag : flaggedAt db accountId = some o.observedAt)
      (hevents : flaggedEvents db accountId = [e])
      (hevent : e.toOutboxEventData = accountFraudFlaggedEvent o.payload o.observedAt)
      (hjustified : Justified source db accountId o signal)

/-- Signals stem from observations, and every account is in one of its two states. -/
structure Recorded (source : Banking.Database) (db : Database) : Prop where
  signals : ∀ {k r}, db.fraudSignals.find? k = some r →
    ∃ eventId o, observed source eventId = some o ∧ r ∈ o.rows
  flags : ∀ accountId, FlagState source db accountId

variable {partition : String → Nat} {own : Lock → Prop} {b a db db' : Database}
  {accountId : String} {signal : Signal}

/-- More signals keep a justification. -/
theorem Justified.mono (h : Justified source db accountId o signal)
    (hrows : ∀ {k r}, db.fraudSignals.find? k = some r → db'.fraudSignals.find? k = some r) :
    Justified source db' accountId o signal :=
  ⟨h.observed, h.account, hrows h.row, h.evidence.mono hrows⟩

/-- More signals keep the state of an account. -/
theorem FlagState.mono (h : FlagState source db accountId)
    (hflag : flaggedAt db' accountId = flaggedAt db accountId)
    (hevents : flaggedEvents db' accountId = flaggedEvents db accountId)
    (hrows : ∀ {k r}, db.fraudSignals.find? k = some r → db'.fraudSignals.find? k = some r) :
    FlagState source db' accountId := by
  cases h with
  | clear hflag₀ hevents₀ => exact .clear (hflag.trans hflag₀) (hevents.trans hevents₀)
  | flagged hflag₀ hevents₀ hevent hjustified =>
    exact .flagged (hflag.trans hflag₀) (hevents.trans hevents₀) hevent (hjustified.mono hrows)

/-- The announcement is about the account. -/
theorem isAccountPayload_flagged (payload : Payload) (observedAt : Date) (accountId : String) :
    isAccountPayload accountId (accountFraudFlaggedEvent payload observedAt).payload =
      (payload.accountId == accountId) := rfl

/-- A commit keeps the record. -/
theorem Commits.recorded (hc : Consistent source)
    (h : Commits partition source eventId own b a) (hb : Recorded source b) :
    Recorded source a := by
  have hsignals : ∀ {k r}, a.fraudSignals.find? k = some r →
      ∃ eventId o, observed source eventId = some o ∧ r ∈ o.rows := by
    intro k r hr
    obtain ⟨o, ho, -, hfind⟩ := h.find?_fraudSignals
    rw [hfind, Database.find?_addSignals, Option.or_eq_some_iff] at hr
    rcases hr with hold | ⟨-, hnew⟩
    · exact hb.signals hold
    · exact ⟨eventId, o, ho, List.mem_of_find?_eq_some hnew⟩
  refine ⟨hsignals, fun accountId ↦ ?_⟩
  have hkept : ∀ {k r}, b.fraudSignals.find? k = some r → a.fraudSignals.find? k = some r :=
    fun hr ↦ h.signal_kept hr
  cases h with
  | @observe own b eventId o now hobserved hunobserved =>
    have houtbox : ((b.record o).mark eventId now).outboxEvents = b.outboxEvents := by
      change (b.record o).toDatabase.outboxEvents = _
      rw [Database.toDatabase_addSignals]
    refine (hb.flags accountId).mono (flaggedAt_observe b o eventId now accountId) ?_ hkept
    rw [flaggedEvents, flaggedEvents, houtbox]
  | @flag own b eventId o now outboxId createdAt hobserved hunobserved hflaggable =>
    obtain ⟨e, he⟩ : ∃ e : OutboxEvent,
        e = (accountFraudFlaggedEvent o.payload o.observedAt).row outboxId createdAt := ⟨_, rfl⟩
    have houtbox : (((b.record o).flag o outboxId createdAt).mark eventId now).outboxEvents.rows =
        b.outboxEvents.rows ++ [e] := by
      change ((b.record o).toDatabase.outboxEvents.insert _).rows = _
      rw [Database.toDatabase_addSignals, he]
      exact Table.rows_insert
        (r := (accountFraudFlaggedEvent o.payload o.observedAt).row outboxId createdAt)
        hflaggable.absent
    have hevents : flaggedEvents (((b.record o).flag o outboxId createdAt).mark eventId now)
        accountId = flaggedEvents b accountId ++
          if o.payload.accountId = accountId then [e] else [] := by
      have htype : e.eventType = "AccountFraudFlagged" := by rw [he]; rfl
      have hpayload : isAccountPayload accountId e.payload = (o.payload.accountId == accountId) :=
        he ▸ isAccountPayload_flagged _ _ _
      rw [flaggedEvents, houtbox, List.filter_append]
      by_cases hid : o.payload.accountId = accountId <;>
        simp [flaggedEvents, htype, hpayload, hid]
    have hflag := flaggedAt_flag b o outboxId eventId createdAt now accountId
    by_cases hid : o.payload.accountId = accountId
    · -- the account was clear, since it was not flagged
      subst hid
      obtain ⟨account, haccount, hunflagged⟩ := hflaggable.unflagged
      rw [if_pos rfl] at hevents hflag
      have hclear : flaggedEvents b o.payload.accountId = [] := by
        cases hb.flags o.payload.accountId with
        | clear hflag₀ hevents₀ => exact hevents₀
        | flagged hflag₀ =>
          rw [flaggedAt, haccount, Option.bind_some, hunflagged] at hflag₀
          cases hflag₀
      rw [hclear, List.nil_append] at hevents
      rw [haccount] at hflag
      obtain ⟨signal, hsignal, hevidence⟩ := hflaggable.evidence
      exact .flagged hflag hevents (he ▸ rfl)
        ⟨⟨eventId, hobserved⟩, rfl, find?_record_row (single hc) hb.signals hobserved hsignal,
          hevidence⟩
    · rw [if_neg hid, List.append_nil] at hevents
      rw [if_neg (Ne.symm hid)] at hflag
      exact (hb.flags accountId).mono hflag hevents hkept

/-! ### Reachable states -/

/-- The engine never flags an account. -/
theorem unflagged {d : Deployment} {accounts : Table Account.id} {now : Date}
    {engine : Banking.SystemState} (hnew : ∀ account ∈ accounts.rows, account.fraudFlaggedAt = none)
    (h : Banking.Runs d (Banking.initial accounts now) engine) {account : Account}
    (haccount : engine.db.accounts.find? accountId = some account) :
    account.fraudFlaggedAt = none := by
  have hall : ∀ {id account}, engine.db.accounts.find? id = some account →
      account.fraudFlaggedAt = none := by
    refine Relational.Evolves.invariant
      (P := fun db ↦ ∀ {id account}, db.accounts.find? id = some account →
        account.fraudFlaggedAt = none)
      (fun call b a hc hb ↦ ?_) (Banking.sound h).evolved
      fun hfound ↦ hnew _ (Table.mem_of_find? hfound)
    intro id account hfound
    rcases hc.accounts with hsame | ⟨id', balance, -, hset⟩
    · rw [hsame] at hfound
      exact hb hfound
    · rw [hset, Database.accounts_setBalance, Table.find?_modify] at hfound
      split at hfound
      · obtain ⟨account', hfound', rfl⟩ := Option.map_eq_some_iff.mp hfound
        change account'.fraudFlaggedAt = none
        exact hb hfound'
      · exact hb hfound
  exact hall haccount

/-- Before any delivery all accounts are clear. -/
theorem Recorded.initial (hc : Consistent source)
    (hnew : ∀ {id account}, source.accounts.find? id = some account →
      account.fraudFlaggedAt = none) :
    Recorded source { source with fraudSignals := .empty } where
  signals := fun hr ↦ nomatch hr
  flags := by
    intro accountId
    refine .clear ?_ (List.filter_eq_nil_iff.mpr fun e he ↦ ?_)
    · change (source.accounts.find? accountId).bind _ = none
      cases hfound : source.accounts.find? accountId with
      | none => rfl
      | some account => exact hnew hfound
    · have htype := hc.eventType (Table.find?_of_mem he)
      rw [Bool.and_eq_true, decide_eq_true_eq]
      rintro ⟨hflagged, -⟩
      rw [hflagged] at htype
      exact absurd htype (by decide)

/-- What holds of the flags in a state. -/
structure FlagsSound (partition : String → Nat) (s : SystemState) : Prop where
  /-- An account is flagged if and only if exactly one announcement of it exists. -/
  paired : ∀ accountId, (flaggedAt s.db accountId).isSome = true ↔
    (flaggedEvents s.db accountId).length = 1
  /-- There are never two announcements. -/
  once : ∀ accountId, (flaggedEvents s.db accountId).length ≤ 1
  /-- A flag never changes. -/
  kept : ∀ {s' accountId t}, Runs partition s s' → flaggedAt s.db accountId = some t →
    flaggedAt s'.db accountId = some t
  /-- The announcement has the time of the flag. -/
  announced : ∀ {accountId t e}, flaggedAt s.db accountId = some t →
    e ∈ flaggedEvents s.db accountId →
    payloadField "flaggedAt" e.payload = some (.str t.toISOString)
  /-- Six distinct transactions share a signal within the minute before the flag, one of them a
  transaction of the account observed at the time of the flag. -/
  evidence : ∀ {accountId t}, flaggedAt s.db accountId = some t → ∃ signal,
    ((s.db.matching signal (t - 60000) t).map FraudSignal.transactionId).Nodup ∧
      6 ≤ (s.db.matching signal (t - 60000) t).length ∧
      ∃ r ∈ s.db.matching signal (t - 60000) t, r.accountId = accountId ∧ r.observedAt = t ∧
        ∃ transaction, s.db.transactions.find? r.transactionId = some transaction ∧
          transaction.accountId = accountId

/-- Evidence shows in the count. -/
theorem Evidence.count {t : Date} (h : Evidence db signal t) :
    SUSPICIOUS_COUNT < (db.matching signal (t - WINDOW_MS) t).length := by
  obtain ⟨rows, hnodup, hcount, hmatching⟩ := h
  exact Nat.lt_of_lt_of_le hcount
    (List.subperm_of_subset (List.Nodup.of_map _ hnodup) hmatching).length_le

private theorem minute_before (t : Int) : t - 60000 ≤ t := by
  omega

/-- A justified flag has its evidence in the table of signals. -/
theorem Justified.evidence_matching (hc : Consistent source)
    (h : Justified source db accountId o signal)
    (htransactions : db.transactions = source.transactions) :
    ((db.matching signal (o.observedAt - 60000) o.observedAt).map FraudSignal.transactionId).Nodup ∧
      6 ≤ (db.matching signal (o.observedAt - 60000) o.observedAt).length ∧
      ∃ r ∈ db.matching signal (o.observedAt - 60000) o.observedAt, r.accountId = accountId ∧
        r.observedAt = o.observedAt ∧
        ∃ transaction, db.transactions.find? r.transactionId = some transaction ∧
          transaction.accountId = accountId := by
  obtain ⟨eventId, ho⟩ := h.observed
  obtain ⟨e, t, -, ht, -, -, htid, haccount, -⟩ := observed_spec hc ho
  refine ⟨Database.nodup_matching _ _, h.evidence.count, o.row signal,
    Database.mem_matching.mpr ⟨h.row, rfl, rfl, minute_before o.observedAt, Int.le_refl _⟩,
    h.account, rfl, t, ?_, haccount.symm.trans h.account⟩
  change db.transactions.find? o.payload.transactionId = some t
  rw [htransactions, htid, ht]

/-- In every state that deliveries of the engine's events reach, the flags are sound and have been
raised once. -/
theorem flags_sound {d : Deployment} {accounts : Table Account.id} {now now' : Date}
    {engine : Banking.SystemState} {s : SystemState}
    (hnew : ∀ account ∈ accounts.rows, account.fraudFlaggedAt = none)
    (hengine : Banking.Runs d (Banking.initial accounts now) engine)
    (h : Runs partition (initial engine.db now') s) : FlagsSound partition s := by
  have hc : Consistent engine.db := consistent hengine
  have hrecorded : Recorded engine.db s.db :=
    Relational.Evolves.invariant (P := Recorded engine.db) (fun _ _ _ hcommit ↦ hcommit.recorded hc)
      (sound (keyed hc) h).evolved (.initial hc (unflagged hnew hengine))
  have htransactions : s.db.transactions = engine.db.transactions :=
    Relational.Evolves.invariant (P := fun db ↦ db.transactions = engine.db.transactions)
      (fun _ _ _ hcommit hb ↦ hcommit.transactions.trans hb) (sound (keyed hc) h).evolved rfl
  constructor
  case paired =>
    intro accountId
    cases hrecorded.flags accountId with
    | clear hflag hevents => simp [hflag, hevents]
    | flagged hflag hevents => simp [hflag, hevents]
  case once =>
    intro accountId
    cases hrecorded.flags accountId with
    | clear hflag hevents => simp [hevents]
    | flagged hflag hevents => simp [hevents]
  case kept =>
    intro s' accountId t hs hflag
    obtain ⟨account, haccount, hflagged⟩ := Option.bind_eq_some_iff.mp hflag
    have hkept := Evolves.account (evolves (keyed hc) h hs) haccount fun _ ↦ by simp [hflagged]
    rw [flaggedAt, hkept, Option.bind_some, hflagged]
  case announced =>
    intro accountId t e hflag he
    cases hrecorded.flags accountId with
    | clear hflag₀ =>
      rw [hflag] at hflag₀
      cases hflag₀
    | flagged hflag₀ hevents hevent =>
      obtain rfl := Option.some.inj (hflag.symm.trans hflag₀)
      rw [hevents, List.mem_singleton] at he
      rw [he, hevent]
      rfl
  case evidence =>
    intro accountId t hflag
    cases hrecorded.flags accountId with
    | clear hflag₀ =>
      rw [hflag] at hflag₀
      cases hflag₀
    | flagged hflag₀ hevents hevent hjustified =>
      obtain rfl := Option.some.inj (hflag.symm.trans hflag₀)
      exact ⟨_, hjustified.evidence_matching hc htransactions⟩

/-! ### A run -/

namespace Sample

/-- The event of the `k`-th request is delivered and handled with `n` statements. -/
def deliver (k n : Nat) : List SystemAction :=
  .start k (Banking.Sample.uuid k) :: List.replicate n (.exec k ⟨Banking.Sample.uuid (k + 4), []⟩)

/-- The six events are delivered one after the other. -/
def deliveries : List SystemAction :=
  deliver 0 8 ++ deliver 1 8 ++ deliver 2 8 ++ deliver 3 8 ++ deliver 4 8 ++ deliver 5 11

end Sample

/-- The sixth transaction from one device within a minute flags its account. -/
theorem flags_sound_velocity : ∃ engine s,
    Banking.Sample.after Sample.requests = some engine ∧
      Relational.run (begins fun _ ↦ 0) (initial engine.db 2000) Sample.deliveries = some s ∧
      flaggedAt s.db Banking.Sample.accountId = some (1000 : Int) ∧ FlagsSound (fun _ ↦ 0) s := by
  have hrun : (do
      let engine ← Banking.Sample.after Sample.requests
      let s ← Relational.run (begins fun _ ↦ 0) (initial engine.db 2000) Sample.deliveries
      return flaggedAt s.db Banking.Sample.accountId) = some (some (1000 : Int)) := by
    decide +kernel
  obtain ⟨engine, hengine, hrun⟩ := Option.bind_eq_some_iff.mp hrun
  obtain ⟨s, hs, hflag⟩ := Option.bind_eq_some_iff.mp hrun
  exact ⟨engine, s, hengine, hs, Option.some.inj hflag,
    flags_sound (by decide) (Relational.runs_of_run hengine) (Relational.runs_of_run hs)⟩

end Banking.AsyncFraud
