import Banking.Refinement.FraudCommits

/-!
# The asynchronous fraud worker refines its commits

Whatever deliveries of other partitions commit between the statements of the handler, it commits
nothing but the steps of `Commits`: signals that it has counted stay, and while it has the turn of
its account's partition nobody else flags the account.
-/

namespace Banking.AsyncFraud

open Js (Date)
open Relational (Outcome Safe Table Tx)

/-! ### Statements -/

namespace Sql

/-- A reading statement on the engine's tables reads. -/
theorem onEngine_reads {β : Type} {q : Banking.Query β} (h : q.Reads) : (onEngine q).Reads where
  locks e d := by
    change (q.locks e d.toDatabase).map Lock.engine = []
    rw [h.locks, List.map_nil]
  write e d := by
    funext db
    change ({ db with toDatabase := q.write e d.toDatabase db.toDatabase } : Database) = db
    rw [h.write]
    rfl
  total e d := h.total e d.toDatabase

/-- Counting signals changes nothing. -/
theorem countSignals_reads (signal : Signal) (gte lte : Date) :
    (countSignals signal gte lte).Reads :=
  ⟨fun _ _ ↦ rfl, fun _ _ ↦ rfl, fun _ _ ↦ rfl⟩

/-- Looking up a flag changes nothing. -/
theorem findFraudFlaggedAt_reads (id : String) : (findFraudFlaggedAt id).Reads :=
  ⟨fun _ _ ↦ rfl, fun _ _ ↦ rfl, fun _ _ ↦ rfl⟩

end Sql

/-! ### The engine's rows -/

/-- The outbox has the rows of the engine, and announcements of flags besides. -/
structure Extends (source db : Banking.Database) : Prop where
  kept : ∀ {id e}, source.outboxEvents.find? id = some e → db.outboxEvents.find? id = some e
  added : ∀ {id e}, db.outboxEvents.find? id = some e →
    source.outboxEvents.find? id = some e ∨ e.eventType = "AccountFraudFlagged"

variable {partition : String → Nat} {source : Banking.Database} {eventId : String}
  {own : Lock → Prop} {b a db db' : Database} {event : TransactionEvent} {o : Observation}

/-- A commit adds announcements only. -/
theorem Commits.extends (hc : Commits partition source eventId own b a)
    (h : Extends source b.toDatabase) : Extends source a.toDatabase := by
  rcases hc.outboxEvents with hsame | ⟨o, outboxId, createdAt, hfresh, -, hinsert⟩
  · refine ⟨fun {id e} he ↦ ?_, fun {id e} he ↦ ?_⟩
    · rw [hsame]
      exact h.kept he
    · rw [hsame] at he
      exact h.added he
  · refine ⟨fun {id e} he ↦ ?_, fun {id e} he ↦ ?_⟩
    · rw [hinsert]
      exact Table.find?_insert_of_some (h.kept he)
    · rw [hinsert] at he
      rcases Table.eq_or_of_find?_insert he with rfl | hold
      · exact .inr rfl
      · exact h.added hold

/-- The outbox always extends that of the engine. -/
theorem Evolves.extends (he : Evolves partition source own db db')
    (h : Extends source db.toDatabase) : Extends source db'.toDatabase :=
  Relational.Evolves.invariant (P := fun db ↦ Extends source db.toDatabase)
    (fun _ _ _ hc hb ↦ hc.extends hb) he h

/-- An observed event is of one of the two types. -/
theorem eventType_of_observation (h : observation event = some o) :
    event.eventType = "TransactionCompleted" ∨ event.eventType = "TransactionBlocked" := by
  rw [observation] at h
  split at h
  · cases h
  · next hrelevant => exact or_iff_not_and_not.mpr hrelevant

/-- What a delivery observes, it observes of a row of the engine. -/
theorem Extends.observed {db : Banking.Database} (h : Extends source db)
    (hd : delivered db eventId = some event) (ho : observation event = some o) :
    observed source eventId = some o ∧ ∃ e, source.outboxEvents.find? eventId = some e ∧
      db.outboxEvents.find? eventId = some e := by
  obtain ⟨e, hrow, -, htype, -⟩ := delivered_eq_some hd
  have hsource : source.outboxEvents.find? eventId = some e := by
    refine (h.added hrow).resolve_right fun hflagged ↦ ?_
    rw [hflagged] at htype
    rcases eventType_of_observation ho with hcompleted | hblocked
    · exact absurd (hcompleted.symm.trans htype) (by decide)
    · exact absurd (hblocked.symm.trans htype) (by decide)
  have hdelivered : delivered source eventId = some event := by
    rw [← hd, delivered, delivered, hrow, hsource]
  refine ⟨?_, e, hsource, hrow⟩
  rw [AsyncFraud.observed, hdelivered]
  exact ho

/-! ### The handler -/

variable {now : Int} {hist : List (Database × Database)}

/-- Deliveries may end in any way. -/
private abbrev anyEnd : Outcome Unit → List (Database × Database) → Prop := fun _ _ ↦ True

/-- The end of the transaction: the event is marked as processed. -/
private theorem safe_mark {pending : Database → Database}
    (hpending : ∀ db, (pending db).processedEvents = db.processedEvents)
    (hsignals : ∀ r ∈ o.rows, own (.fraudSignal r.key))
    (hcommit : ∀ own' now' db', (∀ l, own l → own' l) →
      Evolves partition source (fun l ↦ ¬ own l) db db' → Unobserved own' db' eventId o →
      Commits partition source eventId own' db' ((pending db').mark eventId now')) :
    Safe (Commits partition source) eventId anyEnd
      (Tx.query (Sql.onEngine (Banking.Sql.createProcessedEvent CONSUMER_NAME eventId)) >>=
        fun u ↦ (.commit (.pure u) : Process Unit)) own pending hist now db := by
  refine Safe.query_bind (fun now₁ db₁ supply₁ _ he₁ u hr₁ ↦ ?_) (fun _ _ _ _ _ _ ↦ trivial)
  refine Safe.commit_pure fun db₂ he₂ ↦ ⟨.single ?_, trivial⟩
  have hlock : Lock.engine (.processedEvent CONSUMER_NAME eventId) ∈
      (Sql.onEngine (Banking.Sql.createProcessedEvent CONSUMER_NAME eventId)).locks
        ⟨now₁, supply₁⟩ (pending db₁) := List.mem_singleton_self _
  have hfresh : db₁.processedEvents.find? (CONSUMER_NAME, eventId) = none := by
    have hr₁ : (Banking.Sql.createProcessedEvent CONSUMER_NAME eventId).result ⟨now₁, supply₁⟩
        (pending db₁).toDatabase = some u := hr₁
    rw [← hpending]
    exact Banking.Sql.createProcessedEvent_result hr₁
  refine hcommit _ now₁ db₂ (fun l ↦ Or.inl) (he₁.trans ?_)
    ⟨Evolves.unprocessed he₂ hfresh fun hn ↦ hn (.inr hlock), .inr hlock,
      fun r hr ↦ .inl (hsignals r hr)⟩
  exact he₂.mono (commits_mono partition source) fun l hl ho ↦ hl (.inl ho)

/-- Counting keeps the process as it is; a suspicion rests on evidence. -/
private theorem safe_anySuspicious (hlock : ∀ r ∈ o.rows, own (.fraudSignal r.key))
    {signals : List Signal} (hsignals : ∀ signal ∈ signals, signal ∈ o.signals)
    {f : Bool → Process Unit}
    (h : ∀ suspicious now' db', Evolves partition source (fun l ↦ ¬ own l) db db' →
      (suspicious = true → ∃ signal ∈ o.signals, Evidence (db'.record o) signal o.observedAt) →
      Safe (Commits partition source) eventId anyEnd (f suspicious) own (Database.record o) hist
        now' db') :
    Safe (Commits partition source) eventId anyEnd (anySuspicious o.observedAt signals >>= f) own
      (Database.record o) hist now db := by
  induction signals generalizing f now db with
  | nil => exact h false now db (.refl db) fun hfalse ↦ nomatch hfalse
  | cons signal rest ih =>
    obtain ⟨hsignal, hrest⟩ := List.forall_mem_cons.mp hsignals
    rw [anySuspicious, Tx.bind_assoc]
    refine Safe.read_bind (Sql.countSignals_reads _ _ _) fun now₁ db₁ _ _ he₁ count hcount ↦ ?_
    rw [Tx.bind_assoc]
    refine ih hrest fun suspicious now₂ db₂ he₂ hsuspicious ↦ ?_
    refine h _ now₂ db₂ (he₁.trans he₂) fun hany ↦ ?_
    rcases Bool.or_eq_true_iff.mp hany with habove | hlater
    · obtain rfl := Option.some.inj hcount
      exact ⟨signal, hsignal, Evolves.evidence he₂ hlock
        (Evidence.of_count (of_decide_eq_true habove))⟩
    · exact hsuspicious hlater

/-- The account is flagged under the turn of its partition, if it is not flagged already. -/
private theorem safe_flagAccount (hobserved : observed source eventId = some o)
    (hturn : own (.partition (partition o.payload.accountId)))
    (hlock : ∀ r ∈ o.rows, own (.fraudSignal r.key))
    (hevidence : ∃ signal ∈ o.signals, Evidence (db.record o) signal o.observedAt) :
    Safe (Commits partition source) eventId anyEnd
      (flagAccount o.payload o.observedAt >>= fun _ ↦
        Tx.query (Sql.onEngine (Banking.Sql.createProcessedEvent CONSUMER_NAME eventId)) >>=
          fun u ↦ (.commit (.pure u) : Process Unit)) own (Database.record o) hist now db := by
  have hprocessed : ∀ db : Database, (db.record o).processedEvents = db.processedEvents :=
    fun db ↦ congrArg Banking.Database.processedEvents (Database.toDatabase_addSignals _ _)
  have hunflagged : ∀ now db, Safe (Commits partition source) eventId anyEnd
      (Tx.query (Sql.onEngine (Banking.Sql.createProcessedEvent CONSUMER_NAME eventId)) >>=
        fun u ↦ (.commit (.pure u) : Process Unit)) own (Database.record o) hist now db :=
    fun now db ↦ safe_mark hprocessed hlock
      fun own' now' db' _ _ hunobserved ↦ .observe hobserved hunobserved
  rw [flagAccount, Tx.bind_assoc]
  refine Safe.read_bind (Sql.findFraudFlaggedAt_reads _) fun now₁ db₁ _ _ he₁ found hfound ↦ ?_
  split
  · have haccounts : (db₁.record o).accounts = db₁.accounts :=
      congrArg Banking.Database.accounts (Database.toDatabase_addSignals _ _)
    have hfound : (db₁.accounts.find? o.payload.accountId).map Account.fraudFlaggedAt =
        some none := by
      rw [← haccounts]
      exact Option.some.inj hfound
    obtain ⟨account, haccount, hnone⟩ := Option.map_eq_some_iff.mp hfound
    simp only [Tx.bind_assoc]
    refine Safe.query_bind (fun now₂ db₂ _ _ he₂ _ _ ↦ ?_) (fun _ _ _ _ _ _ ↦ trivial)
    refine Safe.query_bind (fun now₃ db₃ supply₃ _ he₃ u hr₃ ↦ ?_) (fun _ _ _ _ _ _ ↦ trivial)
    refine safe_mark (o := o) (fun db ↦ hprocessed db) (fun r hr ↦ .inl (.inl (hlock r hr)))
      fun own' now' db' hown' he' hunobserved ↦ ?_
    have hmono : ∀ {own₁ own₂ : Lock → Prop} {db₁ db₂ : Database}, (∀ l, own₁ l → own₂ l) →
        Evolves partition source (fun l ↦ ¬ own₂ l) db₁ db₂ →
        Evolves partition source (fun l ↦ ¬ own₁ l) db₁ db₂ :=
      fun hle he ↦ he.mono (commits_mono partition source) fun l hl ho ↦ hl (hle l ho)
    have hlater : Evolves partition source (fun l ↦ ¬ own l) db₁ db' :=
      (he₂.trans (hmono (fun l ↦ Or.inl) he₃)).trans (hmono (fun l hl ↦ .inl (.inl hl)) he')
    obtain ⟨signal, hsignal, hevidence⟩ := hevidence
    have houtbox : Lock.engine (.outboxEventPk supply₃.id) ∈
        (Sql.onEngine (Banking.Sql.createOutboxEvent
          (accountFraudFlaggedEvent o.payload o.observedAt))).locks ⟨now₃, supply₃⟩
          ((db₃.record o).setFraudFlaggedAt o.payload.accountId o.observedAt) :=
      List.mem_singleton_self _
    have hrows : (db₃.record o).outboxEvents = db₃.outboxEvents :=
      congrArg Banking.Database.outboxEvents (Database.toDatabase_addSignals _ _)
    have habsent : db₃.outboxEvents.find? supply₃.id = none := by
      have hr₃ : (Banking.Sql.createOutboxEvent
          (accountFraudFlaggedEvent o.payload o.observedAt)).result ⟨now₃, supply₃⟩
          ((db₃.record o).setFraudFlaggedAt o.payload.accountId o.observedAt).toDatabase =
          some u := hr₃
      rw [← hrows]
      exact Banking.Sql.createOutboxEvent_result hr₃
    have hflaggable : Flaggable partition own' db' o supply₃.id :=
      { evidence := ⟨signal, hsignal, Evolves.evidence (he₁.trans hlater) hlock hevidence⟩
        unflagged := ⟨account, Evolves.account hlater haccount (fun hn ↦ absurd hturn hn), hnone⟩
        turn := hown' _ (.inl (.inl hturn))
        absent := Evolves.outboxEvent_absent he' habsent fun hn ↦ hn (.inr houtbox)
        owned := hown' _ (.inr houtbox) }
    exact .flag hobserved hunobserved hflaggable
  · exact hunflagged now₁ db₁

/-- Whatever commits in between, a delivery that has the turn of its partition commits allowed
steps only. -/
theorem safe_handleEvent
    (hobserved : ∀ {o}, observation event = some o → observed source event.eventId = some o)
    (hturn : ∀ {o}, observation event = some o →
      own (.partition (partition o.payload.accountId))) :
    Safe (Commits partition source) event.eventId anyEnd (handleEvent event) own id hist now
      db := by
  rw [handleEvent]
  split
  · exact trivial
  · next hrelevant =>
    rw [Tx.transaction, Tx.bind_assoc]
    refine Safe.read_bind (Sql.onEngine_reads (Banking.Sql.findProcessedEvent_reads _ _))
      fun now₁ db₁ _ _ _ found _ ↦ ?_
    cases found with
    | some p => exact Safe.commit_unchanged fun _ _ ↦ trivial
    | none =>
      dsimp only
      rw [Tx.bind_assoc, observe]
      split
      · next payload observedAt hpayload hdate =>
        obtain ⟨o, ho⟩ : ∃ o : Observation, o = ⟨payload, observedAt⟩ := ⟨_, rfl⟩
        have hobservation : observation event = some o := by
          rw [observation, if_neg hrelevant, hpayload, hdate, ho]
          rfl
        simp only [Tx.bind_assoc]
        refine Safe.query_bind (fun now₂ db₂ supply₂ _ _ _ _ ↦ ?_) (fun _ _ _ _ _ _ ↦ trivial)
        have hlock : ∀ r ∈ o.rows, own (.fraudSignal r.key) ∨ Lock.fraudSignal r.key ∈
            (Sql.createSignals (signalRows payload observedAt)).locks ⟨now₂, supply₂⟩ db₂ :=
          fun r hr ↦ .inr (List.mem_map.mpr ⟨r, by subst ho; exact hr, rfl⟩)
        subst ho
        refine safe_anySuspicious (o := ⟨payload, observedAt⟩) hlock (fun _ ↦ id)
          fun suspicious now₃ db₃ _ hevidence ↦ ?_
        cases suspicious with
        | true =>
          exact safe_flagAccount (hobserved hobservation) (.inl (hturn hobservation)) hlock
            (hevidence rfl)
        | false =>
          refine safe_mark (o := ⟨payload, observedAt⟩) (fun db ↦ ?_) hlock
            fun own' now' db' _ _ hunobserved ↦ .observe (hobserved hobservation) hunobserved
          exact congrArg Banking.Database.processedEvents (Database.toDatabase_addSignals _ _)
      · exact trivial

/-! ### The system -/

/-- The key of an observed row is its account. -/
def Keyed (source : Banking.Database) : Prop :=
  ∀ {id e o}, source.outboxEvents.find? id = some e → observed source id = some o →
    e.partitionKey = o.payload.accountId

/-- Every delivery is safe from where it starts. -/
theorem safe_begins (hkeyed : Keyed source) {program : Process Unit}
    (hext : Extends source db.toDatabase) (hb : begins partition eventId db = some program) :
    Safe (Commits partition source) eventId anyEnd program (fun _ ↦ False) id [] now db := by
  obtain ⟨e, he, hb⟩ := Option.bind_eq_some_iff.mp hb
  obtain ⟨event, hevent, hb⟩ := Option.bind_eq_some_iff.mp hb
  cases hb
  obtain ⟨-, -, hid, -⟩ := delivered_eq_some hevent
  refine Safe.query_bind (fun now₁ db₁ supply₁ _ _ _ _ ↦ ?_) (fun _ _ _ _ _ _ ↦ trivial)
  subst hid
  refine safe_handleEvent (fun ho ↦ (hext.observed hevent ho).1) fun {o} ho ↦ .inr ?_
  obtain ⟨hobserved, e', hsource, he'⟩ := hext.observed hevent ho
  obtain rfl := Option.some.inj (he.symm.trans he')
  rw [← hkeyed hsource hobserved]
  exact List.mem_singleton_self _

/-- What holds of a state reached from a database of the engine. -/
abbrev Sound (partition : String → Nat) (source : Banking.Database) : SystemState → Prop :=
  Relational.Sound (begins partition) (Commits partition source) (fun _ _ _ _ ↦ True)
    { source with fraudSignals := .empty }

variable {s s' : SystemState}

/-- The engine's rows extend themselves. -/
theorem Extends.refl (source : Banking.Database) : Extends source source :=
  ⟨fun h ↦ h, .inl⟩

/-- Every reachable state is sound. -/
theorem sound (hkeyed : Keyed source) (h : Runs partition (initial source now) s) :
    Sound partition source s :=
  (Relational.Sound.initial now).runs (commits_mono partition source)
    (fun _ _ _ _ he hb ↦ safe_begins hkeyed (Evolves.extends he (.refl source)) hb) h

/-- Along a run from a reachable state the database evolves. -/
theorem evolves (hkeyed : Keyed source) (h : Runs partition (initial source now) s)
    (hs : Runs partition s s') : Evolves partition source (fun _ ↦ True) s.db s'.db :=
  (sound hkeyed h).evolves (commits_mono partition source)
    (fun _ _ _ _ he hb ↦ safe_begins hkeyed (Evolves.extends he (.refl source)) hb) hs

end Banking.AsyncFraud
