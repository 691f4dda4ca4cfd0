import Banking.Refinement.Decoding
import Banking.Relational.Guarantee
import Banking.Workers.AsyncFraud

/-!
# Commits of the asynchronous fraud worker

The abstract model: a commit records the signals of one observed transaction, may flag its account
on evidence that is there at the commit, and marks the event as processed. The outbox rows that the
worker adds are never observed, so the engine's rows determine what every delivery observes.
-/

namespace Banking.AsyncFraud

open Js (Date)
open Relational (Table)

/-! ### Observations -/

/-- What the worker sees of an event. -/
structure Observation where
  payload : Payload
  observedAt : Date

namespace Observation

/-- The signals of the transaction. -/
def signals (o : Observation) : List Signal := signalsOf o.payload

/-- The row of a signal. -/
def row (o : Observation) (signal : Signal) : FraudSignal :=
  ⟨o.payload.accountId, signal.signalType, signal.signalValue, o.payload.transactionId,
    o.observedAt⟩

/-- The rows of the signals. -/
def rows (o : Observation) : List FraudSignal := signalRows o.payload o.observedAt

/-- The rows are those of the signals. -/
theorem mem_rows {o : Observation} {r : FraudSignal} :
    r ∈ o.rows ↔ ∃ signal ∈ o.signals, o.row signal = r := List.mem_map

/-- A row is determined by its key. -/
theorem row_eq {o : Observation} {r : FraudSignal} (hr : r ∈ o.rows) {signal : Signal}
    (hkey : r.key = (o.row signal).key) : r = o.row signal := by
  obtain ⟨⟨type, value⟩, -, rfl⟩ := mem_rows.mp hr
  obtain ⟨htype, hrest⟩ := Prod.mk.inj hkey
  obtain ⟨hvalue, -⟩ := Prod.mk.inj hrest
  simp only [row] at htype hvalue ⊢
  rw [htype, hvalue]

/-- The row that a signal and a transaction have among the rows. -/
theorem find?_rows (o : Observation) (signal : Signal) (transactionId : String) :
    (o.rows.find? fun r ↦
      decide (r.key = (signal.signalType, signal.signalValue, transactionId))) =
      if signal ∈ o.signals ∧ o.payload.transactionId = transactionId then some (o.row signal)
      else none := by
  split
  · next h =>
    obtain ⟨hsignal, rfl⟩ := h
    cases hfound : o.rows.find? fun r ↦
        decide (r.key = (signal.signalType, signal.signalValue, o.payload.transactionId)) with
    | none =>
      have habsent := List.find?_eq_none.mp hfound _ (mem_rows.mpr ⟨signal, hsignal, rfl⟩)
      exact absurd (decide_eq_true rfl) habsent
    | some r =>
      have hkey : r.key = (signal.signalType, signal.signalValue, o.payload.transactionId) := by
        simpa using List.find?_some hfound
      rw [row_eq (List.mem_of_find?_eq_some hfound) hkey]
  · next h =>
    refine List.find?_eq_none.mpr fun r hr hkey ↦ h ?_
    obtain ⟨signal', hsignal', rfl⟩ := mem_rows.mp hr
    obtain ⟨htype, hrest⟩ := Prod.mk.inj (of_decide_eq_true hkey)
    obtain ⟨hvalue, htid⟩ := Prod.mk.inj hrest
    have hsame : signal' = signal := by
      cases signal'
      cases signal
      exact congrArg₂ Signal.mk htype hvalue
    exact ⟨hsame ▸ hsignal', htid⟩

end Observation

/-- What an event lets the worker observe, if it is of one of the two types. -/
def observation (event : TransactionEvent) : Option Observation :=
  if event.eventType ≠ "TransactionCompleted" ∧ event.eventType ≠ "TransactionBlocked" then none
  else (parsePayload event).bind fun payload ↦
    event.occurredDate.map fun observedAt ↦ ⟨payload, observedAt⟩

/-- What a delivery of an outbox row lets the worker observe. -/
def observed (db : Banking.Database) (eventId : String) : Option Observation :=
  (delivered db eventId).bind observation

/-- More than five distinct transactions with the signal were observed within the minute before. -/
def Evidence (db : Database) (signal : Signal) (t : Date) : Prop :=
  ∃ rows : List FraudSignal, (rows.map FraudSignal.transactionId).Nodup ∧
    SUSPICIOUS_COUNT < rows.length ∧ ∀ r ∈ rows, r ∈ db.matching signal (t - WINDOW_MS) t

/-! ### Rows -/

namespace Database

variable {db db' : Database} {signal : Signal}

/-- Inserting a signal keeps the row that is there. -/
theorem find?_addSignal (db : Database) (r : FraudSignal) (k : String × String × String) :
    (db.addSignal r).fraudSignals.find? k =
      (db.fraudSignals.find? k).or (if r.key = k then some r else none) := by
  by_cases hk : r.key = k
  · subst hk
    rw [if_pos rfl]
    cases hr : db.fraudSignals.find? r.key with
    | none => exact Table.find?_insert_self hr
    | some x => exact Table.find?_insert_of_some hr
  · rw [if_neg hk, Option.or_none]
    exact Table.find?_insert_of_ne _ hk

/-- Inserting signals keeps the rows that are there. -/
theorem find?_addSignals (rows : List FraudSignal) (db : Database)
    (k : String × String × String) :
    (db.addSignals rows).fraudSignals.find? k =
      (db.fraudSignals.find? k).or (rows.find? fun r ↦ decide (r.key = k)) := by
  induction rows generalizing db with
  | nil => rw [List.find?_nil, Option.or_none]; rfl
  | cons r rows ih =>
    change ((db.addSignal r).addSignals rows).fraudSignals.find? k = _
    rw [ih, find?_addSignal, List.find?_cons, Option.or_assoc]
    by_cases hk : r.key = k
    · rw [if_pos hk, Option.some_or, decide_eq_true hk]
    · rw [if_neg hk, Option.none_or, decide_eq_false hk]

/-- Inserting signals leaves the engine's tables alone. -/
@[simp] theorem toDatabase_addSignals (rows : List FraudSignal) (db : Database) :
    (db.addSignals rows).toDatabase = db.toDatabase := by
  induction rows generalizing db with
  | nil => rfl
  | cons r rows ih => exact ih (db.addSignal r)

/-- A flag changes one account. -/
theorem find?_setFraudFlaggedAt (db : Database) (id : String) (t : Date) (k : String) :
    (db.setFraudFlaggedAt id t).accounts.find? k =
      if k = id then (db.accounts.find? id).map fun a ↦ { a with fraudFlaggedAt := some t }
      else db.accounts.find? k :=
  Table.find?_modify db.accounts id (fun a ↦ { a with fraudFlaggedAt := some t }) (fun _ ↦ rfl) k

/-- The rows that match are rows with the signal. -/
theorem mem_matching {gte lte : Date} {r : FraudSignal} :
    r ∈ db.matching signal gte lte ↔ db.fraudSignals.find? r.key = some r ∧
      r.signalType = signal.signalType ∧ r.signalValue = signal.signalValue ∧
      gte ≤ r.observedAt ∧ r.observedAt ≤ lte := by
  have hmem : r ∈ db.fraudSignals.rows ↔ db.fraudSignals.find? r.key = some r :=
    ⟨Table.find?_of_mem, Table.mem_of_find?⟩
  simp only [matching, List.mem_filter, hmem, Bool.and_eq_true, beq_iff_eq, decide_eq_true_eq,
    and_assoc]

/-- Rows that match belong to distinct transactions. -/
theorem nodup_matching (gte lte : Date) :
    ((db.matching signal gte lte).map FraudSignal.transactionId).Nodup := by
  have hkeys : (db.matching signal gte lte).map FraudSignal.key =
      ((db.matching signal gte lte).map FraudSignal.transactionId).map
        fun transactionId ↦ (signal.signalType, signal.signalValue, transactionId) := by
    rw [List.map_map]
    refine List.map_congr_left fun r hr ↦ ?_
    obtain ⟨-, htype, hvalue, -⟩ := mem_matching.mp hr
    rw [FraudSignal.key, htype, hvalue]
    rfl
  have hnodup : ((db.matching signal gte lte).map FraudSignal.key).Nodup :=
    (List.filter_sublist.map _).nodup db.fraudSignals.unique
  exact List.Nodup.of_map _ (hkeys ▸ hnodup)

end Database

variable {db db' : Database} {signal : Signal} {t : Date} {o : Observation}

/-- A count above the limit is evidence. -/
theorem Evidence.of_count
    (h : SUSPICIOUS_COUNT < (db.matching signal (t - WINDOW_MS) t).length) :
    Evidence db signal t :=
  ⟨_, Database.nodup_matching _ _, h, fun _ hr ↦ hr⟩

/-- More rows keep the evidence. -/
theorem Evidence.mono (h : Evidence db signal t)
    (hrows : ∀ {k r}, db.fraudSignals.find? k = some r → db'.fraudSignals.find? k = some r) :
    Evidence db' signal t := by
  obtain ⟨rows, hnodup, hcount, hmatching⟩ := h
  refine ⟨rows, hnodup, hcount, fun r hr ↦ ?_⟩
  obtain ⟨hfind, hrest⟩ := Database.mem_matching.mp (hmatching r hr)
  exact Database.mem_matching.mpr ⟨hrows hfind, hrest⟩

/-! ### Recorded observations -/

/-- When an account was flagged. -/
def flaggedAt (db : Database) (accountId : String) : Option Date :=
  (db.accounts.find? accountId).bind Account.fraudFlaggedAt

/-- Every transaction is observed through one event. -/
def Single (source : Banking.Database) : Prop :=
  ∀ {eventId eventId' o o'}, observed source eventId = some o →
    observed source eventId' = some o' →
    o.payload.transactionId = o'.payload.transactionId → eventId = eventId'

/-- Record the signals of an observation. -/
abbrev Database.record (o : Observation) (db : Database) : Database := db.addSignals o.rows

/-- The signals of the observation are there once it is recorded. -/
theorem find?_record_row {source : Banking.Database} {eventId : String} (hsingle : Single source)
    (hsignals : ∀ {k r}, db.fraudSignals.find? k = some r →
      ∃ eventId o, observed source eventId = some o ∧ r ∈ o.rows)
    (ho : observed source eventId = some o) (hsignal : signal ∈ o.signals) :
    (db.record o).fraudSignals.find? (o.row signal).key = some (o.row signal) := by
  rw [Database.find?_addSignals]
  cases hold : db.fraudSignals.find? (o.row signal).key with
  | some r =>
    rw [Option.some_or]
    have hkey : r.key = (o.row signal).key := Table.key_of_find? hold
    obtain ⟨eventId', o', ho', hr⟩ := hsignals hold
    have htid : o.payload.transactionId = o'.payload.transactionId := by
      obtain ⟨signal', -, rfl⟩ := Observation.mem_rows.mp hr
      exact (congrArg (fun k ↦ k.2.2) hkey).symm
    obtain rfl := hsingle ho ho' htid
    obtain rfl := Option.some.inj (ho.symm.trans ho')
    rw [Observation.row_eq hr hkey]
  | none =>
    exact (Option.none_or).trans ((o.find?_rows signal _).trans (if_pos ⟨hsignal, rfl⟩))

/-! ### Single commits -/

/-- Flag the account of an observation and announce it. -/
def Database.flag (o : Observation) (outboxId : String) (now : Date) (db : Database) : Database :=
  { db.setFraudFlaggedAt o.payload.accountId o.observedAt with
    outboxEvents := db.outboxEvents.insert
      ((accountFraudFlaggedEvent o.payload o.observedAt).row outboxId now) }

/-- Mark an event as processed. -/
def Database.mark (eventId : String) (now : Date) (db : Database) : Database :=
  { db with processedEvents := db.processedEvents.insert ⟨eventId, CONSUMER_NAME, now⟩ }

/-- A flag changes one account. -/
theorem flaggedAt_flag (b : Database) (o : Observation) (outboxId eventId : String)
    (createdAt now : Date) (accountId : String) :
    flaggedAt (((b.record o).flag o outboxId createdAt).mark eventId now) accountId =
      if accountId = o.payload.accountId then
        (b.accounts.find? accountId).map fun _ ↦ o.observedAt
      else flaggedAt b accountId := by
  change (((b.record o).setFraudFlaggedAt o.payload.accountId
    o.observedAt).accounts.find? accountId).bind _ = _
  rw [Database.find?_setFraudFlaggedAt, Database.toDatabase_addSignals]
  split
  · next hid =>
    rw [hid]
    cases b.accounts.find? o.payload.accountId <;> rfl
  · rfl

/-- Recording and marking flag no account. -/
theorem flaggedAt_observe (b : Database) (o : Observation) (eventId : String) (now : Date)
    (accountId : String) :
    flaggedAt ((b.record o).mark eventId now) accountId = flaggedAt b accountId := by
  change ((b.record o).toDatabase.accounts.find? accountId).bind _ = _
  rw [Database.toDatabase_addSignals]
  rfl

/-- The process may record the observation and mark its event. -/
structure Unobserved (own : Lock → Prop) (db : Database) (eventId : String) (o : Observation) :
    Prop where
  absent : db.processedEvents.find? (CONSUMER_NAME, eventId) = none
  owned : own (.engine (.processedEvent CONSUMER_NAME eventId))
  signals : ∀ r ∈ o.rows, own (.fraudSignal r.key)

/-- The process may flag the account of the observation: there is evidence, and the account is not
flagged. -/
structure Flaggable (partition : String → Nat) (own : Lock → Prop) (db : Database)
    (o : Observation) (outboxId : String) : Prop where
  evidence : ∃ signal ∈ o.signals, Evidence (db.record o) signal o.observedAt
  unflagged : ∃ account, db.accounts.find? o.payload.accountId = some account ∧
    account.fraudFlaggedAt = none
  turn : own (.partition (partition o.payload.accountId))
  absent : db.outboxEvents.find? outboxId = none
  owned : own (.engine (.outboxEventPk outboxId))

/-- One committed delivery. -/
inductive Commits (partition : String → Nat) (source : Banking.Database) :
    String → (Lock → Prop) → Database → Database → Prop
  | observe {own b eventId o now} (hobserved : observed source eventId = some o)
      (hunobserved : Unobserved own b eventId o) :
      Commits partition source eventId own b ((b.record o).mark eventId now)
  | flag {own b eventId o now outboxId createdAt} (hobserved : observed source eventId = some o)
      (hunobserved : Unobserved own b eventId o)
      (hflaggable : Flaggable partition own b o outboxId) :
      Commits partition source eventId own b
        (((b.record o).flag o outboxId createdAt).mark eventId now)

variable {partition : String → Nat} {source : Banking.Database} {eventId : String}
  {own : Lock → Prop} {b a : Database}

/-- Owning more locks forbids no commit. -/
theorem commits_mono (partition : String → Nat) (source : Banking.Database) :
    Relational.LockMonotone (Commits partition source) := by
  intro eventId own own' b a ho h
  have hmono : ∀ {o}, Unobserved own b eventId o → Unobserved own' b eventId o :=
    fun hu ↦ ⟨hu.absent, ho _ hu.owned, fun r hr ↦ ho _ (hu.signals r hr)⟩
  cases h with
  | observe hobserved hunobserved => exact .observe hobserved (hmono hunobserved)
  | flag hobserved hunobserved hflaggable =>
    exact .flag hobserved (hmono hunobserved)
      { hflaggable with
        turn := ho _ hflaggable.turn
        owned := ho _ hflaggable.owned }

/-- What a commit leaves of the signals. -/
theorem Commits.find?_fraudSignals (h : Commits partition source eventId own b a) :
    ∃ o, observed source eventId = some o ∧ (∀ r ∈ o.rows, own (.fraudSignal r.key)) ∧
      ∀ k, a.fraudSignals.find? k = (b.record o).fraudSignals.find? k := by
  cases h with
  | observe hobserved hunobserved => exact ⟨_, hobserved, hunobserved.signals, fun _ ↦ rfl⟩
  | flag hobserved hunobserved hflaggable =>
    exact ⟨_, hobserved, hunobserved.signals, fun _ ↦ rfl⟩

/-- A commit keeps every signal. -/
theorem Commits.signal_kept (h : Commits partition source eventId own b a)
    {k : String × String × String} {r : FraudSignal} (hr : b.fraudSignals.find? k = some r) :
    a.fraudSignals.find? k = some r := by
  obtain ⟨o, -, -, hfind⟩ := h.find?_fraudSignals
  rw [hfind, Database.find?_addSignals, hr, Option.some_or]

/-- A commit adds a signal under the lock on its key only. -/
theorem Commits.signal_absent (h : Commits partition source eventId own b a)
    {k : String × String × String} (hk : b.fraudSignals.find? k = none)
    (hlock : ¬ own (.fraudSignal k)) : a.fraudSignals.find? k = none := by
  obtain ⟨o, -, hown, hfind⟩ := h.find?_fraudSignals
  rw [hfind, Database.find?_addSignals, hk, Option.none_or, List.find?_eq_none]
  rintro r hr hkey
  exact hlock (of_decide_eq_true hkey ▸ hown r hr)

/-- A commit changes an account under the turn of its partition only, and keeps a flag. -/
theorem Commits.account (h : Commits partition source eventId own b a) {id : String}
    {account : Account} (hfound : b.accounts.find? id = some account)
    (hlock : own (.partition (partition id)) → account.fraudFlaggedAt ≠ none) :
    a.accounts.find? id = some account := by
  cases h with
  | @observe own b eventId o now hobserved hunobserved =>
    change (b.record o).toDatabase.accounts.find? id = _
    rwa [Database.toDatabase_addSignals]
  | @flag own b eventId o now outboxId createdAt hobserved hunobserved hflaggable =>
    have hne : id ≠ o.payload.accountId := by
      rintro rfl
      obtain ⟨account', hfound', hunflagged⟩ := hflaggable.unflagged
      obtain rfl := Option.some.inj (hfound.symm.trans hfound')
      exact hlock hflaggable.turn hunflagged
    change ((b.record o).setFraudFlaggedAt o.payload.accountId o.observedAt).accounts.find? id = _
    rw [Database.find?_setFraudFlaggedAt, if_neg hne, Database.toDatabase_addSignals, hfound]

/-- A commit keeps the identifiers of accounts and the transactions. -/
theorem Commits.transactions (h : Commits partition source eventId own b a) :
    a.transactions = b.transactions := by
  cases h with
  | @observe own b eventId o now hobserved hunobserved =>
    change (b.record o).toDatabase.transactions = _
    rw [Database.toDatabase_addSignals]
  | @flag own b eventId o now outboxId createdAt hobserved hunobserved hflaggable =>
    change (b.record o).toDatabase.transactions = _
    rw [Database.toDatabase_addSignals]

/-- A commit leaves the outbox alone, or adds the announcement of a flag. -/
theorem Commits.outboxEvents (h : Commits partition source eventId own b a) :
    a.outboxEvents = b.outboxEvents ∨ ∃ (o : Observation) (outboxId : String) (createdAt : Date),
      b.outboxEvents.find? outboxId = none ∧ own (.engine (.outboxEventPk outboxId)) ∧
      a.outboxEvents = b.outboxEvents.insert
        ((accountFraudFlaggedEvent o.payload o.observedAt).row outboxId createdAt) := by
  cases h with
  | @observe own b eventId o now hobserved hunobserved =>
    refine .inl ?_
    change (b.record o).toDatabase.outboxEvents = _
    rw [Database.toDatabase_addSignals]
  | @flag own b eventId o now outboxId createdAt hobserved hunobserved hflaggable =>
    refine .inr ⟨o, outboxId, createdAt, hflaggable.absent, hflaggable.owned, ?_⟩
    change (b.record o).toDatabase.outboxEvents.insert _ = _
    rw [Database.toDatabase_addSignals]

/-- A commit marks its event under the lock on it. -/
theorem Commits.processedEvents (h : Commits partition source eventId own b a) :
    ∃ now, b.processedEvents.find? (CONSUMER_NAME, eventId) = none ∧
      own (.engine (.processedEvent CONSUMER_NAME eventId)) ∧
      a.processedEvents = b.processedEvents.insert ⟨eventId, CONSUMER_NAME, now⟩ := by
  cases h with
  | @observe own b eventId o now hobserved hunobserved =>
    refine ⟨now, hunobserved.absent, hunobserved.owned, ?_⟩
    change (b.record o).toDatabase.processedEvents.insert _ = _
    rw [Database.toDatabase_addSignals]
  | @flag own b eventId o now outboxId createdAt hobserved hunobserved hflaggable =>
    refine ⟨now, hunobserved.absent, hunobserved.owned, ?_⟩
    change (b.record o).toDatabase.processedEvents.insert _ = _
    rw [Database.toDatabase_addSignals]

/-! ### Evolutions -/

/-- What the commits of others can make of a database. -/
abbrev Evolves (partition : String → Nat) (source : Banking.Database) :
    (Lock → Prop) → Database → Database → Prop :=
  Relational.Evolves (Commits partition source)

namespace Evolves

variable {k : String × String × String} {r : FraudSignal} {id : String}

/-- Signals stay. -/
theorem signal_kept (he : Evolves partition source own db db')
    (h : db.fraudSignals.find? k = some r) :
    db'.fraudSignals.find? k = some r :=
  Relational.Evolves.invariant (P := fun db ↦ db.fraudSignals.find? k = some r)
    (fun _ _ _ hc hb ↦ hc.signal_kept hb) he h

/-- A key that others have no lock on stays unused. -/
theorem signal_absent (he : Evolves partition source own db db')
    (h : db.fraudSignals.find? k = none) (hlock : ¬ own (.fraudSignal k)) :
    db'.fraudSignals.find? k = none :=
  Relational.Evolves.invariant (P := fun db ↦ db.fraudSignals.find? k = none)
    (fun _ _ _ hc hb ↦ hc.signal_absent hb hlock) he h

/-- An account stays as it is, unless others have the turn of its partition and flag it. -/
theorem account (he : Evolves partition source own db db') {account : Account}
    (h : db.accounts.find? id = some account)
    (hlock : own (.partition (partition id)) → account.fraudFlaggedAt ≠ none) :
    db'.accounts.find? id = some account :=
  Relational.Evolves.invariant (P := fun db ↦ db.accounts.find? id = some account)
    (fun _ _ _ hc hb ↦ hc.account hb hlock) he h

/-- An outbox identifier that others have no lock on stays unused. -/
theorem outboxEvent_absent (he : Evolves partition source own db db')
    (h : db.outboxEvents.find? id = none) (hlock : ¬ own (.engine (.outboxEventPk id))) :
    db'.outboxEvents.find? id = none := by
  refine Relational.Evolves.invariant (P := fun db ↦ db.outboxEvents.find? id = none)
    (fun _ b a hc hb ↦ ?_) he h
  rcases hc.outboxEvents with hsame | ⟨o, outboxId, createdAt, -, hown, hinsert⟩
  · rwa [hsame]
  · have hne : outboxId ≠ id := by
      rintro rfl
      exact hlock hown
    rw [hinsert]
    exact (Table.find?_insert_of_ne (r := OutboxEventData.row _ outboxId createdAt) _ hne).trans hb

/-- An event that others have no lock on stays unmarked. -/
theorem unprocessed (he : Evolves partition source own db db')
    (h : db.processedEvents.find? (CONSUMER_NAME, id) = none)
    (hlock : ¬ own (.engine (.processedEvent CONSUMER_NAME id))) :
    db'.processedEvents.find? (CONSUMER_NAME, id) = none := by
  refine Relational.Evolves.invariant
    (P := fun db ↦ db.processedEvents.find? (CONSUMER_NAME, id) = none) (fun eventId b a hc hb ↦ ?_)
    he h
  obtain ⟨now, -, hown, hinsert⟩ := hc.processedEvents
  have hne : (CONSUMER_NAME, eventId) ≠ (CONSUMER_NAME, id) := by
    rintro hkey
    exact hlock ((Prod.mk.inj hkey).2 ▸ hown)
  rw [hinsert]
  exact (Table.find?_insert_of_ne (r := ProcessedEvent.mk eventId CONSUMER_NAME now) _ hne).trans hb

/-- Evidence on top of signals that the process has locked stays. -/
theorem evidence (he : Evolves partition source (fun l ↦ ¬ own l) db db')
    (hlock : ∀ r ∈ o.rows, own (.fraudSignal r.key)) (h : Evidence (db.record o) signal t) :
    Evidence (db'.record o) signal t := by
  refine h.mono fun {k r} hfind ↦ ?_
  rw [Database.find?_addSignals] at hfind ⊢
  cases hold : db.fraudSignals.find? k with
  | some x =>
    rw [hold, Option.some_or] at hfind
    rw [Evolves.signal_kept he hold, Option.some_or]
    exact hfind
  | none =>
    rw [hold, Option.none_or] at hfind
    have hkey : r.key = k := by simpa using List.find?_some hfind
    have hown := hlock r (List.mem_of_find?_eq_some hfind)
    rw [Evolves.signal_absent he hold fun hn ↦ hn (hkey ▸ hown), Option.none_or]
    exact hfind

end Evolves

end Banking.AsyncFraud
