import Banking.Refinement.AsyncFraud
import Banking.Relational.Alone
import Mathlib.Data.List.Dedup

/-!
# Deliveries that are handled one at a time

What the handler of the fraud worker does when nobody else commits: it records the signals, counts
them, and flags the account exactly if one of them was observed too often and it is not flagged yet.
-/

namespace Banking.AsyncFraud

open Js (Date)
open Relational (Alone Table Tx)

/-! ### The effect of one delivery -/

/-- One of the signals was observed too often within the minute before. -/
def suspicious (db : Database) (o : Observation) : Bool :=
  o.signals.any fun signal ↦
    decide (SUSPICIOUS_COUNT < (db.matching signal (o.observedAt - WINDOW_MS) o.observedAt).length)

/-- What the first delivery of an event makes of the database. -/
inductive Effect (eventId : String) (o : Observation) (b : Database) : Database → Prop
  | observe {now} (hquiet : suspicious (b.record o) o = true →
      (flaggedAt b o.payload.accountId).isSome = true) :
      Effect eventId o b ((b.record o).mark eventId now)
  | flag {outboxId createdAt now account} (hsuspicious : suspicious (b.record o) o = true)
      (haccount : b.accounts.find? o.payload.accountId = some account)
      (hunflagged : account.fraudFlaggedAt = none)
      (hfresh : b.outboxEvents.find? outboxId = none) :
      Effect eventId o b (((b.record o).flag o outboxId createdAt).mark eventId now)

variable {event : TransactionEvent} {o : Observation} {eventId : String} {db db' : Database}
  {pending : Database → Database} {u : Unit}

/-- Counting alone tells whether one of the signals was observed too often. -/
private theorem alone_anySuspicious {observedAt : Date} {signals : List Signal}
    {f : Bool → Process Unit}
    (h : Alone (anySuspicious observedAt signals >>= f) pending db u db') :
    Alone (f (signals.any fun signal ↦ decide (SUSPICIOUS_COUNT <
      ((pending db).matching signal (observedAt - WINDOW_MS) observedAt).length))) pending db u
      db' := by
  induction signals generalizing f with
  | nil => exact h
  | cons signal rest ih =>
    rw [anySuspicious, Tx.bind_assoc] at h
    obtain ⟨env, count, hcount, h⟩ := h.read_bind (Sql.countSignals_reads _ _ _)
    obtain rfl := Option.some.inj hcount
    rw [Tx.bind_assoc] at h
    exact ih h

/-- Marking alone leaves the event marked. -/
private theorem alone_mark
    (h : Alone (Tx.query (Sql.onEngine
      (Banking.Sql.createProcessedEvent CONSUMER_NAME eventId)) >>=
        fun u ↦ (.commit (.pure u) : Process Unit)) pending db u db') :
    ∃ now, db' = (pending db).mark eventId now := by
  obtain ⟨env, _, -, h⟩ := h.query_bind
  exact ⟨env.now, h.commit_pure⟩

/-- The account of a payload with signals exists once they are inserted. -/
theorem account_of_createSignals {payload : Payload} {observedAt : Date}
    {env : Relational.Env Supply}
    (h : (Sql.createSignals (signalRows payload observedAt)).result env db = some u)
    {signal : Signal} (hsignal : signal ∈ signalsOf payload) :
    (db.accounts.find? payload.accountId).isSome = true := by
  simp only [Sql.createSignals] at h
  split at h
  · next hall =>
    have hrow := List.all_eq_true.mp hall _ (List.mem_map.mpr ⟨signal, hsignal, rfl⟩)
    exact (Bool.and_eq_true_iff.mp hrow).1
  · cases h

/-- Observing alone has the effect of a first delivery. -/
private theorem alone_observe (hobservation : observation event = some o)
    (h : Alone (observe event >>= fun _ ↦
      Tx.query (Sql.onEngine (Banking.Sql.createProcessedEvent CONSUMER_NAME eventId)) >>=
        fun u ↦ (.commit (.pure u) : Process Unit)) id db u db') :
    Effect eventId o db db' := by
  have hrelevant := eventType_of_observation hobservation
  rw [observation, if_neg (by rintro ⟨hne, hne'⟩; exact hrelevant.elim hne hne')] at hobservation
  obtain ⟨payload, hpayload, hrest⟩ := Option.bind_eq_some_iff.mp hobservation
  obtain ⟨observedAt, hdate, rfl⟩ := Option.map_eq_some_iff.mp hrest
  obtain ⟨o, ho⟩ : ∃ o : Observation, o = ⟨payload, observedAt⟩ := ⟨_, rfl⟩
  rw [← ho]
  rw [observe, hpayload, hdate] at h
  simp only [Tx.bind_assoc] at h
  obtain ⟨env₁, u₁, hcreated, h⟩ := h.query_bind
  have h := alone_anySuspicious h
  have hwrite : ∀ view, (Sql.createSignals (signalRows payload observedAt)).write env₁ view =
      Database.record o := by
    intro view
    rw [ho]
    rfl
  rw [hwrite] at h
  have haccounts : (db.record o).accounts = db.accounts :=
    congrArg Banking.Database.accounts (Database.toDatabase_addSignals _ _)
  have hjudged : (signalsOf payload).any (fun signal ↦ decide (SUSPICIOUS_COUNT <
      ((db.record o).matching signal (observedAt - WINDOW_MS) observedAt).length)) =
      suspicious (db.record o) o := by rw [ho]; rfl
  change Alone (ite ((signalsOf payload).any (fun signal ↦ decide (SUSPICIOUS_COUNT <
      ((db.record o).matching signal (observedAt - WINDOW_MS) observedAt).length)) = true)
      _ _ >>= _) _ _ _ _ at h
  rw [hjudged] at h
  split at h
  · next hsuspicious =>
    rw [flagAccount, Tx.bind_assoc] at h
    obtain ⟨env₂, found, hfound, h⟩ := h.read_bind (Sql.findFraudFlaggedAt_reads _)
    have hfound : (db.accounts.find? payload.accountId).map Account.fraudFlaggedAt = found := by
      rw [← haccounts]
      exact Option.some.inj hfound
    split at h
    · obtain ⟨account, haccount, hunflagged⟩ := Option.map_eq_some_iff.mp hfound
      simp only [Tx.bind_assoc] at h
      obtain ⟨env₃, _, -, h⟩ := h.query_bind
      obtain ⟨env₄, u₄, houtbox, h⟩ := h.query_bind
      obtain ⟨now, hdb'⟩ := alone_mark h
      have houtbox : (Banking.Sql.createOutboxEvent
          (accountFraudFlaggedEvent payload observedAt)).result env₄
          ((db.record o).setFraudFlaggedAt payload.accountId observedAt).toDatabase = some u₄ :=
        houtbox
      have houtboxes : (db.record o).outboxEvents = db.outboxEvents :=
        congrArg Banking.Database.outboxEvents (Database.toDatabase_addSignals _ _)
      have habsent := Banking.Sql.createOutboxEvent_result houtbox
      have hfresh : db.outboxEvents.find? env₄.supply.id = none := by
        rw [← houtboxes]
        exact habsent
      rw [hdb']
      subst ho
      exact .flag hsuspicious haccount hunflagged hfresh
    · next hother =>
      obtain ⟨now, rfl⟩ := alone_mark h
      refine .observe fun _ ↦ ?_
      -- a signal was inserted, so the account exists
      obtain ⟨signal, hsignal, -⟩ := List.any_eq_true.mp hsuspicious
      rw [ho] at hsignal
      obtain ⟨account, haccount⟩ :=
        Option.isSome_iff_exists.mp (account_of_createSignals hcreated hsignal)
      have haccount : db.accounts.find? payload.accountId = some account := haccount
      have hflagged : account.fraudFlaggedAt ≠ none := by
        intro hnone
        rw [haccount, Option.map_some, hnone] at hfound
        exact hother hfound.symm
      rw [flaggedAt, ho, haccount, Option.bind_some]
      exact Option.isSome_iff_ne_none.mpr hflagged
  · next hquiet =>
    obtain ⟨now, rfl⟩ := alone_mark h
    exact .observe fun hsuspicious ↦ absurd hsuspicious hquiet

/-- What the handler does alone: nothing that stays if the event is marked or not observed, and
else the effect of a first delivery. -/
theorem alone_handleEvent (h : Alone (handleEvent event) id db u db') :
    db' = db ∧ (observation event = none ∨
        (db.processedEvents.find? (CONSUMER_NAME, event.eventId)).isSome = true) ∨
      ∃ o, observation event = some o ∧
        db.processedEvents.find? (CONSUMER_NAME, event.eventId) = none ∧
        Effect event.eventId o db db' := by
  rw [handleEvent] at h
  split at h
  · next hirrelevant => exact .inl ⟨h.of_pure, .inl (by rw [observation, if_pos hirrelevant])⟩
  · next hrelevant =>
    rw [Tx.transaction, Tx.bind_assoc] at h
    obtain ⟨env, found, hfound, h⟩ := h.read_bind
      (Sql.onEngine_reads (Banking.Sql.findProcessedEvent_reads _ _))
    have hfound : db.processedEvents.find? (CONSUMER_NAME, event.eventId) = found :=
      Option.some.inj hfound
    cases found with
    | some p => exact .inl ⟨h.commit_pure, .inr (by rw [hfound]; rfl)⟩
    | none =>
      rw [Tx.bind_assoc] at h
      cases ho : observation event with
      | some o => exact .inr ⟨o, rfl, hfound, alone_observe ho h⟩
      | none =>
        -- the handler would have thrown
        rw [observation, if_neg hrelevant] at ho
        rw [observe] at h
        split at h
        · next payload observedAt hpayload hdate =>
          rw [hpayload, hdate] at ho
          cases ho
        · cases h

/-! ### Sequences of deliveries -/

/-- One delivery is handled to completion, and nothing happens in between. -/
def Delivers (partition : String → Nat) (eventId : String) (s s' : SystemState) : Prop :=
  ∃ i born actions, Relational.OnlyExecutes i actions ∧
    Relational.run (begins partition) s (.start i eventId :: actions) = some s' ∧
    s'.session i = some ⟨eventId, born, .done (.returned ())⟩

/-- Deliveries are handled to completion one after the other. -/
inductive Processes (partition : String → Nat) : List String → SystemState → SystemState → Prop
  | nil {s} : Processes partition [] s s
  | cons {eventId eventIds s t u} (h : Delivers partition eventId s t)
      (hs : Processes partition eventIds t u) : Processes partition (eventId :: eventIds) s u

variable {partition : String → Nat} {s s' : SystemState}

/-- A delivery that is handled by itself does what the handler does alone. -/
theorem Delivers.alone (h : Delivers partition eventId s s') :
    ∃ event, delivered s.db.toDatabase eventId = some event ∧
      Alone (handleEvent event) id s.db () s'.db := by
  obtain ⟨i, born, actions, honly, hrun, hdone⟩ := h
  rw [Relational.run, Relational.execute, List.foldlM_cons] at hrun
  obtain ⟨t, hstart, hrest⟩ := Option.bind_eq_some_iff.mp hrun
  cases Relational.step_kind hstart with
  | @start _ _ program free hbegins =>
    obtain ⟨e, he, hbegins⟩ := Option.bind_eq_some_iff.mp hbegins
    obtain ⟨event, hevent, hbegins⟩ := Option.bind_eq_some_iff.mp hbegins
    cases hbegins
    have halone := Relational.alone_of_run honly (if_pos rfl) hrest hdone
    obtain ⟨env, _, -, halone⟩ := halone.query_bind
    exact ⟨event, hevent, halone⟩

/-! ### What the deliveries show -/

/-- What the deliveries let the worker observe, in their order. -/
def observations (source : Banking.Database) (eventIds : List String) : List Observation :=
  eventIds.filterMap (observed source)

/-- The first observation of a transaction with a signal. -/
def earliest (source : Banking.Database) (eventIds : List String) (signal : Signal)
    (transactionId : String) : Option Observation :=
  (observations source eventIds).find? fun o ↦
    decide (signal ∈ o.signals ∧ o.payload.transactionId = transactionId)

/-- The transactions whose first observation with a signal lies between two times. -/
def counted (source : Banking.Database) (eventIds : List String) (signal : Signal)
    (gte lte : Date) : List String :=
  ((observations source eventIds).map fun o ↦ o.payload.transactionId).dedup.filter
    fun transactionId ↦ (earliest source eventIds signal transactionId).any fun o ↦
      decide (gte ≤ o.observedAt ∧ o.observedAt ≤ lte)

/-- The observation shows a signal that more than five of the transactions delivered so far show in
the minute before. -/
def Exceeds (source : Banking.Database) (eventIds : List String) (o : Observation)
    (signal : Signal) : Prop :=
  signal ∈ o.signals ∧
    5 < (counted source eventIds signal (o.observedAt - 60000) o.observedAt).length

/-- The first delivery of one of the account's events was one too many. -/
def Caught (source : Banking.Database) (eventIds : List String) (accountId : String) : Prop :=
  ∃ before eventId after o signal, eventIds = before ++ eventId :: after ∧ eventId ∉ before ∧
    observed source eventId = some o ∧ o.payload.accountId = accountId ∧
    Exceeds source (before ++ [eventId]) o signal

variable {source : Banking.Database} {eventIds : List String} {signal : Signal}
  {transactionId accountId : String}

/-- The deliveries before keep their observations. -/
theorem observations_concat (source : Banking.Database) (eventIds : List String)
    (eventId : String) : observations source (eventIds ++ [eventId]) =
      observations source eventIds ++ (observed source eventId).toList := by
  rw [observations, List.filterMap_append, observations]
  cases ho : observed source eventId <;> simp [ho]

/-- The first observation stays. -/
theorem earliest_concat (source : Banking.Database) (eventIds : List String) (eventId : String)
    (signal : Signal) (transactionId : String) :
    earliest source (eventIds ++ [eventId]) signal transactionId =
      (earliest source eventIds signal transactionId).or
        ((observed source eventId).filter fun o ↦
          decide (signal ∈ o.signals ∧ o.payload.transactionId = transactionId)) := by
  rw [earliest, observations_concat, List.find?_append, earliest]
  cases observed source eventId with
  | none => rfl
  | some o => rw [Option.toList_some, List.find?_singleton, Option.filter_some]

/-- The first observation is one of the transaction with the signal. -/
theorem earliest_eq_some (h : earliest source eventIds signal transactionId = some o) :
    o ∈ observations source eventIds ∧ signal ∈ o.signals ∧
      o.payload.transactionId = transactionId :=
  ⟨List.mem_of_find?_eq_some h, of_decide_eq_true (List.find?_some (p := fun o : Observation ↦
    decide (signal ∈ o.signals ∧ o.payload.transactionId = transactionId)) h)⟩

/-- A transaction is counted if its first observation lies between the two times. -/
theorem mem_counted {gte lte : Date} :
    transactionId ∈ counted source eventIds signal gte lte ↔
      ∃ o, earliest source eventIds signal transactionId = some o ∧
        gte ≤ o.observedAt ∧ o.observedAt ≤ lte := by
  rw [counted, List.mem_filter, List.mem_dedup, Option.any_eq_true]
  constructor
  · rintro ⟨-, o, ho, hwindow⟩
    exact ⟨o, ho, of_decide_eq_true hwindow⟩
  · rintro ⟨o, ho, hwindow⟩
    obtain ⟨hmem, -, htid⟩ := earliest_eq_some ho
    exact ⟨List.mem_map.mpr ⟨o, hmem, htid⟩, o, ho, decide_eq_true hwindow⟩

/-- No transaction is counted twice. -/
theorem nodup_counted (gte lte : Date) : (counted source eventIds signal gte lte).Nodup :=
  (List.nodup_dedup _).filter _

/-- One more delivery catches the account of its event, or nobody. -/
theorem caught_concat : Caught source (eventIds ++ [eventId]) accountId ↔
    Caught source eventIds accountId ∨ eventId ∉ eventIds ∧ ∃ o signal,
      observed source eventId = some o ∧ o.payload.accountId = accountId ∧
        Exceeds source (eventIds ++ [eventId]) o signal := by
  constructor
  · rintro ⟨before, eventId', after, o, signal, hsplit, hfirst, hrest⟩
    rcases List.eq_nil_or_concat after with rfl | ⟨after, last, rfl⟩
    · obtain ⟨rfl, hlast⟩ := List.append_inj' hsplit rfl
      obtain rfl := List.singleton_inj.mp hlast
      exact .inr ⟨hfirst, o, signal, hrest⟩
    · rw [List.concat_eq_append, ← List.cons_append, ← List.append_assoc] at hsplit
      obtain ⟨rfl, -⟩ := List.append_inj' hsplit rfl
      exact .inl ⟨before, eventId', after, o, signal, rfl, hfirst, hrest⟩
  · rintro (⟨before, eventId', after, o, signal, rfl, hrest⟩ | ⟨hfirst, o, signal, hrest⟩)
    · exact ⟨before, eventId', after ++ [eventId], o, signal, by simp, hrest⟩
    · exact ⟨eventIds, eventId, [], o, signal, rfl, hfirst, hrest⟩

/-! ### What is recorded of them -/

/-- The commit of a first delivery. -/
theorem Effect.commits (h : Effect eventId o db db') (ho : observed source eventId = some o)
    (hfresh : db.processedEvents.find? (CONSUMER_NAME, eventId) = none) :
    Commits partition source eventId (fun _ ↦ True) db db' := by
  have hunobserved : Unobserved (fun _ ↦ True) db eventId o := ⟨hfresh, trivial, fun _ _ ↦ trivial⟩
  cases h with
  | observe => exact .observe ho hunobserved
  | flag hsuspicious haccount hunflagged habsent =>
    obtain ⟨signal, hsignal, hcount⟩ := List.any_eq_true.mp hsuspicious
    exact .flag ho hunobserved
      { evidence := ⟨signal, hsignal, .of_count (of_decide_eq_true hcount)⟩
        unflagged := ⟨_, haccount, hunflagged⟩
        turn := trivial
        absent := habsent
        owned := trivial }

/-- The effect of a first delivery on the signals. -/
theorem Effect.find?_fraudSignals (h : Effect eventId o db db') (k : String × String × String) :
    db'.fraudSignals.find? k =
      (db.fraudSignals.find? k).or (o.rows.find? fun r ↦ decide (r.key = k)) := by
  rw [← Database.find?_addSignals]
  cases h <;> rfl

/-- The effect of a first delivery on the flags. -/
theorem Effect.flaggedAt_isSome (h : Effect eventId o db db') :
    (flaggedAt db' accountId).isSome = true ↔ (flaggedAt db accountId).isSome = true ∨
      o.payload.accountId = accountId ∧ suspicious (db.record o) o = true := by
  cases h with
  | observe hquiet =>
    rw [flaggedAt_observe]
    constructor
    · exact .inl
    · rintro (hflagged | ⟨rfl, hsuspicious⟩)
      · exact hflagged
      · exact hquiet hsuspicious
  | flag hsuspicious haccount _ _ =>
    rw [flaggedAt_flag]
    by_cases hid : accountId = o.payload.accountId
    · subst hid
      rw [if_pos rfl, haccount]
      exact iff_of_true rfl (.inr ⟨rfl, hsuspicious⟩)
    · rw [if_neg hid, or_iff_left fun hsame ↦ hid hsame.1.symm]

/-- The database records the deliveries. -/
structure Tracked (source : Banking.Database) (eventIds : List String) (db : Database) : Prop where
  outbox : Extends source db.toDatabase
  signals : ∀ signal transactionId,
    db.fraudSignals.find? (signal.signalType, signal.signalValue, transactionId) =
      (earliest source eventIds signal transactionId).map (·.row signal)
  processed : ∀ {eventId o}, observed source eventId = some o →
    ((db.processedEvents.find? (CONSUMER_NAME, eventId)).isSome = true ↔ eventId ∈ eventIds)
  flags : ∀ accountId, (flaggedAt db accountId).isSome = true ↔ Caught source eventIds accountId

/-- The worker counts the transactions that were first observed within the minute before. -/
theorem length_matching {gte lte : Date} (h : ∀ signal transactionId,
    db.fraudSignals.find? (signal.signalType, signal.signalValue, transactionId) =
      (earliest source eventIds signal transactionId).map (·.row signal)) :
    (db.matching signal gte lte).length = (counted source eventIds signal gte lte).length := by
  rw [← List.length_map FraudSignal.transactionId]
  refine List.Perm.length_eq ((List.perm_ext_iff_of_nodup (Database.nodup_matching _ _)
    (nodup_counted _ _)).mpr fun transactionId ↦ ?_)
  rw [mem_counted, List.mem_map]
  constructor
  · rintro ⟨r, hr, rfl⟩
    obtain ⟨hfind, htype, hvalue, hwindow⟩ := Database.mem_matching.mp hr
    rw [FraudSignal.key, htype, hvalue, h] at hfind
    obtain ⟨o, ho, hrow⟩ := Option.map_eq_some_iff.mp hfind
    refine ⟨o, ho, ?_⟩
    rw [← hrow] at hwindow
    exact hwindow
  · rintro ⟨o, ho, hwindow⟩
    have hfind := h signal transactionId
    rw [ho, Option.map_some] at hfind
    obtain ⟨-, -, rfl⟩ := earliest_eq_some ho
    exact ⟨o.row signal, Database.mem_matching.mpr ⟨hfind, rfl, rfl, hwindow⟩, rfl⟩

/-- A delivery is one too many if the worker counts too many transactions. -/
theorem suspicious_iff (h : ∀ signal transactionId,
    db.fraudSignals.find? (signal.signalType, signal.signalValue, transactionId) =
      (earliest source eventIds signal transactionId).map (·.row signal)) :
    suspicious db o = true ↔ ∃ signal, Exceeds source eventIds o signal := by
  rw [suspicious, List.any_eq_true]
  refine exists_congr fun signal ↦ and_congr_right fun _ ↦ ?_
  rw [decide_eq_true_eq, length_matching h]
  rfl

/-- A delivery that is not observed, or not for the first time, leaves everything as recorded. -/
private theorem Tracked.skip (h : Tracked source eventIds db)
    (hskip : ∀ {o}, observed source eventId = some o → eventId ∈ eventIds) :
    Tracked source (eventIds ++ [eventId]) db where
  outbox := h.outbox
  signals signal transactionId := by
    rw [h.signals, earliest_concat]
    cases ho : observed source eventId with
    | none => rw [Option.filter_none, Option.or_none]
    | some o =>
      by_cases hshows : signal ∈ o.signals ∧ o.payload.transactionId = transactionId
      · have hmem : o ∈ observations source eventIds :=
          List.mem_filterMap.mpr ⟨eventId, hskip ho, ho⟩
        cases hfound : earliest source eventIds signal transactionId with
        | none =>
          exact absurd (decide_eq_true hshows) (List.find?_eq_none.mp hfound o hmem)
        | some o' => rw [Option.some_or]
      · rw [Option.filter_some, if_neg (by simpa using hshows), Option.or_none]
  processed {eventId' o} ho := by
    rw [h.processed ho, List.mem_append, List.mem_singleton]
    constructor
    · exact .inl
    · rintro (hmem | rfl)
      · exact hmem
      · exact hskip ho
  flags accountId := by
    rw [h.flags, caught_concat]
    constructor
    · exact .inl
    · rintro (hcaught | ⟨hfirst, o, signal, ho, -⟩)
      · exact hcaught
      · exact absurd (hskip ho) hfirst

/-- A first delivery is recorded. -/
private theorem Tracked.record (h : Tracked source eventIds db)
    (ho : observed source eventId = some o)
    (hfresh : db.processedEvents.find? (CONSUMER_NAME, eventId) = none)
    (heffect : Effect eventId o db db') : Tracked source (eventIds ++ [eventId]) db' := by
  have hfirst : eventId ∉ eventIds := by
    rw [← h.processed ho, hfresh]
    simp
  have hcommit : Commits (fun _ ↦ 0) source eventId (fun _ ↦ True) db db' :=
    heffect.commits ho hfresh
  have hsignals : ∀ signal transactionId, (db.record o).fraudSignals.find?
      (signal.signalType, signal.signalValue, transactionId) =
        (earliest source (eventIds ++ [eventId]) signal transactionId).map (·.row signal) := by
    intro signal transactionId
    rw [Database.find?_addSignals, h.signals, earliest_concat, ho, Observation.find?_rows,
      Option.filter_some, Option.map_or]
    congr 1
    by_cases hshows : signal ∈ o.signals ∧ o.payload.transactionId = transactionId <;>
      simp [hshows]
  constructor
  case outbox => exact hcommit.extends h.outbox
  case signals =>
    intro signal transactionId
    rw [heffect.find?_fraudSignals, ← Database.find?_addSignals, hsignals]
  case processed =>
    intro eventId' o' ho'
    obtain ⟨now, -, -, hinsert⟩ := hcommit.processedEvents
    rw [hinsert, List.mem_append, List.mem_singleton]
    by_cases hid : eventId = eventId'
    · subst hid
      rw [Table.find?_insert_self (r := ProcessedEvent.mk eventId CONSUMER_NAME now) hfresh]
      exact iff_of_true rfl (.inr rfl)
    · have hne : (CONSUMER_NAME, eventId) ≠ (CONSUMER_NAME, eventId') := by simp [hid]
      rw [Table.find?_insert_of_ne (r := ProcessedEvent.mk eventId CONSUMER_NAME now) _ hne,
        h.processed ho', or_iff_left (Ne.symm hid)]
  case flags =>
    intro accountId
    rw [heffect.flaggedAt_isSome, h.flags, caught_concat, suspicious_iff hsignals]
    refine or_congr_right ⟨?_, ?_⟩
    · rintro ⟨haccount, signal, hexceeds⟩
      exact ⟨hfirst, o, signal, ho, haccount, hexceeds⟩
    · rintro ⟨-, o', signal, ho', haccount, hexceeds⟩
      obtain rfl := Option.some.inj (ho.symm.trans ho')
      exact ⟨haccount, signal, hexceeds⟩

/-- What a delivery of a row observes is what the engine's row shows. -/
theorem Extends.observed_eq {db : Banking.Database} (h : Extends source db)
    (hd : delivered db eventId = some event) :
    AsyncFraud.observed source eventId = observation event := by
  cases ho : observation event with
  | some o => exact (h.observed hd ho).1
  | none =>
    rw [AsyncFraud.observed]
    cases hsource : delivered source eventId with
    | none => rfl
    | some event' =>
      obtain ⟨e, hrow, -⟩ := delivered_eq_some hsource
      have hsame : delivered db eventId = delivered source eventId := by
        rw [delivered, delivered, hrow, h.kept hrow]
      rw [hsame, hsource] at hd
      rw [Option.some.inj hd]
      exact ho

/-- One more delivery is recorded. -/
theorem Tracked.deliver (h : Tracked source eventIds s.db)
    (hd : Delivers partition eventId s s') : Tracked source (eventIds ++ [eventId]) s'.db := by
  obtain ⟨event, hevent, halone⟩ := hd.alone
  obtain ⟨-, -, hid, -⟩ := delivered_eq_some hevent
  have hobserved := h.outbox.observed_eq hevent
  rcases alone_handleEvent halone with ⟨hsame, hskip⟩ | ⟨o, ho, hfresh, heffect⟩
  · rw [hsame]
    refine h.skip fun {o} ho ↦ (h.processed ho).mp ?_
    rcases hskip with hnone | hmarked
    · rw [hobserved, hnone] at ho
      cases ho
    · rwa [← hid]
  · rw [hid] at hfresh heffect
    exact h.record (hobserved.trans ho) hfresh heffect

/-- All deliveries are recorded. -/
theorem Tracked.process {eventIds' : List String} (h : Tracked source eventIds s.db)
    (hs : Processes partition eventIds' s s') : Tracked source (eventIds ++ eventIds') s'.db := by
  induction hs generalizing eventIds with
  | nil => rwa [List.append_nil]
  | cons hd _ ih =>
    rw [List.append_cons]
    exact ih (h.deliver hd)

end Banking.AsyncFraud
