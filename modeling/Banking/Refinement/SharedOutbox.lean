import Banking.Properties.FraudFlags
import Banking.Refinement.System

/-!
# The outbox that the engine shares with the fraud worker

The fraud worker writes to the table that the engine writes to: an announcement for every account
that it flags. The engine goes on as before, since nothing it does depends on announcements, and the
workers skip them when they are delivered; the table has the rows of both in the order of their
commits.
-/

namespace Banking.Shared

open AsyncFraud (Observation accountFraudFlaggedEvent observed)
open Js (Date)
open Relational (Table)

/-! ### The system -/

/-- The engine, the outbox with the rows of both writers, and when the fraud worker has flagged
which account. -/
structure State where
  engine : SystemState
  outboxEvents : Table OutboxEvent.id
  fraudFlaggedAt : String → Option Date

/-- What can happen next. -/
inductive Action where
  | engine (a : SystemAction)
  /-- The fraud worker commits the handling of an event in which it flags the account, announced
  under a generated identifier. -/
  | flag (eventId : String) (id : String) (createdAt : Date)

/-- The rows that the engine has added to its outbox. -/
def added (db db' : Database) : List OutboxEvent :=
  db'.outboxEvents.rows.drop db.outboxEvents.rows.length

/-- One step. An identifier that is in use fails the insert; the engine's process then ends as if
its connection had failed. -/
def step (d : Deployment) (s : State) : Action → Option State
  | .engine a =>
    (Relational.step (begins d) s.engine a).bind fun engine ↦
      if (added s.engine.db engine.db).all fun e ↦ (s.outboxEvents.find? e.id).isNone then
        some { s with
          engine
          outboxEvents := (added s.engine.db engine.db).foldl Table.insert s.outboxEvents }
      else none
  | .flag eventId id createdAt =>
    (observed s.engine.db eventId).bind fun o ↦
      (s.engine.db.accounts.find? o.payload.accountId).bind fun account ↦
        if account.fraudFlaggedAt.or (s.fraudFlaggedAt account.id) = none ∧
            s.outboxEvents.find? id = none then
          some { s with
            outboxEvents := s.outboxEvents.insert
              ((accountFraudFlaggedEvent o.payload o.observedAt).row id createdAt)
            fraudFlaggedAt := Function.update s.fraudFlaggedAt account.id (some o.observedAt) }
        else none

/-- No call has started, and the fraud worker has flagged nobody. -/
def initial (accounts : Table Account.id) (now : Date) : State :=
  ⟨Banking.initial accounts now, .empty, fun _ ↦ none⟩

/-- Finitely many steps. -/
abbrev Runs (d : Deployment) : State → State → Prop := Relational.Steps (step d)

/-- An account with the flag that the fraud worker has set. -/
def State.flagged (s : State) (a : Account) : Account :=
  { a with fraudFlaggedAt := a.fraudFlaggedAt.or (s.fraudFlaggedAt a.id) }

/-- The tables of the engine as both writers leave them. -/
def State.database (s : State) : Database :=
  { s.engine.db with
    outboxEvents := s.outboxEvents
    accounts := s.engine.db.accounts.map s.flagged (fun _ ↦ rfl) }

/-- Flags change nothing else of an account. -/
theorem State.find?_account (s : State) (id : String) :
    s.database.accounts.find? id = (s.engine.db.accounts.find? id).map s.flagged :=
  Table.find?_map _ s.flagged (fun _ ↦ rfl) id

/-! ### The engine goes on as before -/

variable {d : Deployment} {accounts : Table Account.id} {now : Date} {s s' : State}

/-- What a step of the engine leaves. -/
theorem engine_spec {a : SystemAction} (hstep : step d s (.engine a) = some s') :
    ∃ engine, Relational.step (begins d) s.engine a = some engine ∧
      (∀ e ∈ added s.engine.db engine.db, s.outboxEvents.find? e.id = none) ∧
      s' = { s with
        engine
        outboxEvents := (added s.engine.db engine.db).foldl Table.insert s.outboxEvents } := by
  obtain ⟨engine, hengine, hstep⟩ := Option.bind_eq_some_iff.mp hstep
  split at hstep
  · next hfresh =>
    cases hstep
    exact ⟨engine, hengine, by simpa using hfresh, rfl⟩
  · cases hstep

/-- What a flag leaves. -/
theorem flag_spec {eventId id : String} {createdAt : Date}
    (hstep : step d s (.flag eventId id createdAt) = some s') :
    ∃ o, observed s.engine.db eventId = some o ∧ s.fraudFlaggedAt o.payload.accountId = none ∧
      s.outboxEvents.find? id = none ∧
      s' = { s with
        outboxEvents := s.outboxEvents.insert
          ((accountFraudFlaggedEvent o.payload o.observedAt).row id createdAt)
        fraudFlaggedAt := Function.update s.fraudFlaggedAt o.payload.accountId
          (some o.observedAt) } := by
  obtain ⟨o, ho, hstep⟩ := Option.bind_eq_some_iff.mp hstep
  obtain ⟨account, haccount, hstep⟩ := Option.bind_eq_some_iff.mp hstep
  obtain hkey : account.id = o.payload.accountId := Table.key_of_find? haccount
  rw [hkey] at hstep
  split at hstep
  · next hguard =>
    cases hstep
    exact ⟨o, ho, (Option.or_eq_none_iff.mp hguard.1).2, hguard.2, rfl⟩
  · cases hstep

/-- The engine of a run runs. -/
theorem engine_runs (h : Runs d s s') : Banking.Runs d s.engine s'.engine := by
  induction h with
  | refl => exact .refl
  | tail _ hstep ih =>
    obtain ⟨a, hstep⟩ := hstep
    cases a with
    | engine a =>
      obtain ⟨engine, hengine, -, rfl⟩ := engine_spec hstep
      exact ih.tail ⟨a, hengine⟩
    | flag eventId id createdAt =>
      obtain ⟨o, -, -, -, rfl⟩ := flag_spec hstep
      exact ih

/-! ### The rows of both writers -/

/-- The outbox has the rows of the engine in their order, and at most one announcement for each
account, of an event that was observed. -/
structure Merged (s : State) : Prop where
  rows : s.outboxEvents.rows.filter (fun e ↦ e.eventType ≠ "AccountFraudFlagged") =
    s.engine.db.outboxEvents.rows
  announced : ∀ e ∈ s.outboxEvents.rows, e.eventType = "AccountFraudFlagged" →
    ∃ eventId o, observed s.engine.db eventId = some o ∧
      e.toOutboxEventData = accountFraudFlaggedEvent o.payload o.observedAt ∧
      (s.fraudFlaggedAt o.payload.accountId).isSome
  once : ((s.outboxEvents.rows.filter fun e ↦ e.eventType = "AccountFraudFlagged").map
    (fun e ↦ e.aggregateId)).Nodup

/-- Engine events are no announcements. -/
theorem eventType_ne {db : Database} (hc : Consistent db) {e : OutboxEvent}
    (he : e ∈ db.outboxEvents.rows) : e.eventType ≠ "AccountFraudFlagged" := by
  intro hflagged
  have htype := hc.eventType (Table.find?_of_mem he)
  rw [hflagged] at htype
  exact absurd htype (by decide)

/-- What an event shows does not change. -/
theorem observed_evolves {own : Lock → Prop} {db db' : Database} (he : Evolves d own db db')
    {eventId : String} {o : Observation} (h : observed db eventId = some o) :
    observed db' eventId = some o := by
  obtain ⟨event, hevent, ho⟩ := Option.bind_eq_some_iff.mp h
  obtain ⟨row, hrow, hevent⟩ := Option.bind_eq_some_iff.mp hevent
  exact Option.bind_eq_some_iff.mpr
    ⟨event, Option.bind_eq_some_iff.mpr ⟨row, he.outboxEvent hrow, hevent⟩, ho⟩

/-- The rows that a step of the engine adds follow those of the outbox. -/
private theorem rows_engine {engine : SystemState}
    (hfresh : ∀ e ∈ added s.engine.db engine.db, s.outboxEvents.find? e.id = none) :
    ((added s.engine.db engine.db).foldl Table.insert s.outboxEvents).rows =
      s.outboxEvents.rows ++ added s.engine.db engine.db :=
  Table.rows_foldl_insert hfresh
    (((List.drop_sublist _ _).map _).nodup engine.db.outboxEvents.unique)

/-- A step adds rows at the end of the outbox. -/
theorem outbox_step {a : Action} (hstep : step d s a = some s') :
    s.outboxEvents.rows <+: s'.outboxEvents.rows := by
  cases a with
  | engine a =>
    obtain ⟨engine, -, hfresh, rfl⟩ := engine_spec hstep
    rw [rows_engine hfresh]
    exact List.prefix_append _ _
  | flag eventId id createdAt =>
    obtain ⟨o, -, -, hfresh, rfl⟩ := flag_spec hstep
    rw [Table.rows_insert hfresh]
    exact List.prefix_append _ _

/-- Along a run the outbox of both writers grows at its end only. -/
theorem outbox_prefix (h : Runs d s s') : s.outboxEvents.rows <+: s'.outboxEvents.rows :=
  Relational.Steps.invariant (P := fun t ↦ s.outboxEvents.rows <+: t.outboxEvents.rows)
    (fun _ _ _ hstep ht ↦ ht.trans (outbox_step hstep)) h (List.prefix_refl _)

/-- A step of the engine keeps the rows merged. -/
private theorem Merged.engine (hm : Merged s) {engine : SystemState}
    (hc : Consistent engine.db) (he : Evolves d (fun _ ↦ True) s.engine.db engine.db)
    (hextends : s.engine.db.outboxEvents.rows <+: engine.db.outboxEvents.rows)
    (hfresh : ∀ e ∈ added s.engine.db engine.db, s.outboxEvents.find? e.id = none) :
    Merged { s with
      engine
      outboxEvents := (added s.engine.db engine.db).foldl Table.insert s.outboxEvents } := by
  obtain ⟨rest, hrest⟩ := hextends
  have hadded : added s.engine.db engine.db = rest := by
    rw [added, ← hrest, List.drop_left]
  -- what the engine adds is no announcement
  have htypes : ∀ e ∈ added s.engine.db engine.db, e.eventType ≠ "AccountFraudFlagged" :=
    fun e hmem ↦ eventType_ne hc ((List.drop_sublist _ _).subset hmem)
  constructor
  · change List.filter _ ((added s.engine.db engine.db).foldl Table.insert s.outboxEvents).rows =
      engine.db.outboxEvents.rows
    rw [rows_engine hfresh, List.filter_append, ← hrest, ← hm.rows, hadded]
    exact congrArg _ (List.filter_eq_self.mpr fun e hmem ↦
      decide_eq_true (htypes e (hadded ▸ hmem)))
  · intro e hmem hflagged
    change e ∈ ((added s.engine.db engine.db).foldl Table.insert s.outboxEvents).rows at hmem
    rw [rows_engine hfresh] at hmem
    rcases List.mem_append.mp hmem with hold | hnew
    · obtain ⟨eventId, o, ho, hdata, hflag⟩ := hm.announced e hold hflagged
      exact ⟨eventId, o, observed_evolves he ho, hdata, hflag⟩
    · exact absurd hflagged (htypes e hnew)
  · have hnone : (added s.engine.db engine.db).filter
        (fun e ↦ e.eventType = "AccountFraudFlagged") = [] :=
      List.filter_eq_nil_iff.mpr fun e hmem ↦ by simpa using htypes e hmem
    rw [rows_engine hfresh, List.filter_append, hnone, List.append_nil]
    exact hm.once

/-- A flag keeps the rows merged. -/
private theorem Merged.flag (hm : Merged s) {eventId id : String} {createdAt : Date}
    {o : Observation} (ho : observed s.engine.db eventId = some o)
    (hunflagged : s.fraudFlaggedAt o.payload.accountId = none)
    (hfresh : s.outboxEvents.find? id = none) :
    Merged { s with
      outboxEvents := s.outboxEvents.insert
        ((accountFraudFlaggedEvent o.payload o.observedAt).row id createdAt)
      fraudFlaggedAt := Function.update s.fraudFlaggedAt o.payload.accountId
        (some o.observedAt) } := by
  have hrows := Table.rows_insert (t := s.outboxEvents)
    (r := (accountFraudFlaggedEvent o.payload o.observedAt).row id createdAt) hfresh
  constructor
  · change List.filter _ (s.outboxEvents.insert _).rows = s.engine.db.outboxEvents.rows
    rw [hrows, List.filter_append, ← hm.rows]
    exact List.append_nil _
  · intro e hmem hflagged
    change e ∈ (s.outboxEvents.insert _).rows at hmem
    rw [hrows] at hmem
    rcases List.mem_append.mp hmem with hold | hnew
    · obtain ⟨eventId', o', ho', hdata, hflag⟩ := hm.announced e hold hflagged
      refine ⟨eventId', o', ho', hdata, ?_⟩
      by_cases hsame : o'.payload.accountId = o.payload.accountId
      · simp [hsame]
      · simpa [Function.update_of_ne hsame] using hflag
    · obtain rfl := List.mem_singleton.mp hnew
      exact ⟨eventId, o, ho, rfl, by simp⟩
  · rw [hrows, List.filter_append, List.map_append]
    refine List.nodup_append.mpr ⟨hm.once, List.nodup_singleton _, ?_⟩
    intro a ha b hb heq
    obtain ⟨e, hmem, rfl⟩ := List.mem_map.mp ha
    obtain ⟨hrow, htype⟩ := List.mem_filter.mp hmem
    obtain ⟨-, o', -, hdata, hflag⟩ := hm.announced e hrow (of_decide_eq_true htype)
    have haccount : e.aggregateId = o'.payload.accountId :=
      congrArg OutboxEventData.aggregateId hdata
    rw [List.mem_singleton.mp hb] at heq
    -- the account had not been flagged
    rw [haccount.symm.trans heq] at hflag
    exact absurd hunflagged (Option.isSome_iff_ne_none.mp hflag)

/-- In every run the outbox has the rows of both writers. -/
theorem merged (h : Runs d (initial accounts now) s) : Merged s := by
  induction h with
  | refl => exact ⟨rfl, nofun, List.nodup_nil⟩
  | tail hrun hstep ih =>
    obtain ⟨a, hstep⟩ := hstep
    have hengine := engine_runs hrun
    cases a with
    | engine a =>
      obtain ⟨engine, ha, hfresh, rfl⟩ := engine_spec hstep
      have hnext : Banking.Runs d _ engine := Relation.ReflTransGen.single ⟨a, ha⟩
      exact ih.engine (consistent (hengine.tail ⟨a, ha⟩)) (evolves hengine hnext)
        (Banking.outbox_prefix hengine hnext) hfresh
    | flag eventId id createdAt =>
      obtain ⟨o, ho, hunflagged, hfresh, rfl⟩ := flag_spec hstep
      exact ih.flag ho hunflagged hfresh

/-- A commit of the fraud worker on these tables leaves the accounts and the outbox as they are, or
as a flag leaves them. -/
theorem flag_of_commits {partition : String → Nat} {eventId : String}
    {own : AsyncFraud.Lock → Prop} {b a : AsyncFraud.Database}
    (hc : AsyncFraud.Commits partition s.engine.db eventId own b a)
    (haccounts : b.accounts = s.database.accounts) (houtbox : b.outboxEvents = s.outboxEvents) :
    (a.accounts = b.accounts ∧ a.outboxEvents = b.outboxEvents) ∨ ∃ id createdAt s',
      step d s (.flag eventId id createdAt) = some s' ∧ a.accounts = s'.database.accounts ∧
        a.outboxEvents = s'.outboxEvents := by
  cases hc with
  | @observe own b eventId o now hobserved hunobserved =>
    refine .inl ⟨?_, ?_⟩
    · change (b.record o).toDatabase.accounts = _
      rw [AsyncFraud.Database.toDatabase_addSignals]
    · change (b.record o).toDatabase.outboxEvents = _
      rw [AsyncFraud.Database.toDatabase_addSignals]
  | @flag own b eventId o now outboxId createdAt hobserved hunobserved hflaggable =>
    obtain ⟨account', haccount', hunflagged⟩ := hflaggable.unflagged
    rw [haccounts, State.find?_account] at haccount'
    obtain ⟨account, haccount, rfl⟩ := Option.map_eq_some_iff.mp haccount'
    have hkey : account.id = o.payload.accountId := Table.key_of_find? haccount
    have hfresh : s.outboxEvents.find? outboxId = none := houtbox ▸ hflaggable.absent
    refine .inr ⟨outboxId, createdAt, { s with
      outboxEvents := s.outboxEvents.insert
        ((accountFraudFlaggedEvent o.payload o.observedAt).row outboxId createdAt)
      fraudFlaggedAt := Function.update s.fraudFlaggedAt account.id (some o.observedAt) }, ?_, ?_,
      ?_⟩
    · have hguard : account.fraudFlaggedAt.or (s.fraudFlaggedAt account.id) = none ∧
          s.outboxEvents.find? outboxId = none := ⟨hunflagged, hfresh⟩
      simp only [step, hobserved, haccount, Option.bind_some, if_pos hguard]
    · refine Table.ext ?_
      change ((b.record o).setFraudFlaggedAt o.payload.accountId o.observedAt).accounts.rows =
        s.engine.db.accounts.rows.map (State.flagged _)
      rw [AsyncFraud.Database.setFraudFlaggedAt, AsyncFraud.Database.toDatabase_addSignals,
        haccounts, Table.rows_modify]
      change (s.engine.db.accounts.rows.map s.flagged).map _ = _
      rw [List.map_map]
      refine List.map_congr_left fun x hx ↦ ?_
      by_cases hid : x.id = account.id
      · -- the account of the observation
        have hx' := Table.find?_of_mem hx
        rw [hid, hkey, haccount] at hx'
        obtain rfl := Option.some.inj hx'
        have hnone := (Option.or_eq_none_iff.mp hunflagged).1
        simp [State.flagged, hkey, hnone]
      · simp [State.flagged, hkey ▸ hid, Function.update_of_ne hid]
    · change (b.record o).toDatabase.outboxEvents.insert _ = _
      rw [AsyncFraud.Database.toDatabase_addSignals, houtbox]

end Banking.Shared
