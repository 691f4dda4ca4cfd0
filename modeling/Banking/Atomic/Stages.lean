import Banking.Atomic.Commits

/-!
# The stages of one transaction

The record of a transaction is all that the database holds about its `transactionId`. It passes
through seven stages; each kind of commit leads from stage to stage.
-/

namespace Banking

/-- All that the database holds about one `transactionId`. -/
structure Record where
  transaction : Option Transaction
  entry : Option LedgerEntry
  events : List OutboxEvent
  /-- The ledger worker has recorded the `TransactionCompleted` event. -/
  posted : Bool
  /-- The finalization worker has recorded the `LedgerUpdated` event. -/
  settled : Bool

/-! ### Events and the status of their transaction -/

section Events

variable {t : Transaction} {balance : Int} {e : OutboxEvent} {l : LedgerEntry}

/-- The type of a completed event. -/
theorem IsCompletedEvent.eventType (h : IsCompletedEvent t balance e) :
    e.eventType = "TransactionCompleted" := by
  obtain ⟨input, ip, -, he⟩ := h
  rw [he, completedEvent]

/-- A completed event is filed under its transaction. -/
theorem IsCompletedEvent.transactionId (h : IsCompletedEvent t balance e) :
    e.transactionId = t.transactionId := by
  obtain ⟨input, ip, hr, he⟩ := h
  rw [he, completedEvent, hr.transactionId]

/-- A completed event determines the balance that was written. -/
theorem IsCompletedEvent.balance_unique {input : CreateTransactionInput} {row : Transaction}
    {ipAddress : Option String} {balance' : Int} (h : IsCompletedEvent t balance e)
    (he : e.toOutboxEventData = completedEvent input row balance' ipAddress) :
    balance = balance' := by
  obtain ⟨input', ip, -, he'⟩ := h
  have heq := he'.symm.trans he
  simp only [completedEvent, OutboxEventData.mk.injEq, Json.obj.injEq, List.cons.injEq,
    Prod.mk.injEq, Json.str.injEq, true_and] at heq
  exact Js.toString_injective heq.2.2.2.2.2.2.2.1

/-- The type of a blocked event. -/
theorem IsBlockedEvent.eventType (h : IsBlockedEvent t e) :
    e.eventType = "TransactionBlocked" := by
  obtain ⟨input, ip, reason, -, he⟩ := h
  rw [he, blockedEvent]

/-- A blocked event is filed under its transaction. -/
theorem IsBlockedEvent.transactionId (h : IsBlockedEvent t e) :
    e.transactionId = t.transactionId := by
  obtain ⟨input, ip, reason, hr, he⟩ := h
  rw [he, blockedEvent, hr.transactionId]

/-- The type of a ledger event. -/
theorem IsLedgerUpdatedEvent.eventType (h : IsLedgerUpdatedEvent t balance e) :
    e.eventType = "LedgerUpdated" := by
  rw [h, Ledger.ledgerUpdatedEvent]

/-- A ledger event is filed under its transaction. -/
theorem IsLedgerUpdatedEvent.transactionId (h : IsLedgerUpdatedEvent t balance e) :
    e.transactionId = t.transactionId := by
  rw [h, Ledger.ledgerUpdatedEvent, movement]

/-- A ledger event determines the text of the balance it was written with, which is all that
a finalized event reads of it. -/
theorem IsLedgerUpdatedEvent.finalized_congr {balance' : Int} {e' : OutboxEvent}
    (h : IsLedgerUpdatedEvent t balance e) (h' : IsLedgerUpdatedEvent t balance' e)
    (hf : IsFinalizedEvent t balance e') : IsFinalizedEvent t balance' e' := by
  have heq := h.symm.trans h'
  simp only [Ledger.ledgerUpdatedEvent, movement, OutboxEventData.mk.injEq, Json.obj.injEq,
    List.cons.injEq, Prod.mk.injEq, Json.str.injEq, true_and, and_true] at heq
  rw [IsFinalizedEvent, ← heq]
  exact hf

/-- The type of a finalized event. -/
theorem IsFinalizedEvent.eventType (h : IsFinalizedEvent t balance e) :
    e.eventType = "TransactionFinalized" := by
  rw [h, Finalization.finalizedEvent]

/-- A finalized event is filed under its transaction. -/
theorem IsFinalizedEvent.transactionId (h : IsFinalizedEvent t balance e) :
    e.transactionId = t.transactionId := by
  rw [h, Finalization.finalizedEvent]

/-- The type of a compensated event. -/
theorem IsCompensatedEvent.eventType (h : IsCompensatedEvent t e) :
    e.eventType = "TransactionCompensated" := by
  obtain ⟨b, he⟩ := h
  rw [he, Finalization.compensatedEvent]

/-- A compensated event is filed under its transaction. -/
theorem IsCompensatedEvent.transactionId (h : IsCompensatedEvent t e) :
    e.transactionId = t.transactionId := by
  obtain ⟨b, he⟩ := h
  rw [he, Finalization.compensatedEvent]

variable (status : TransactionStatus)

/-- What was requested does not depend on the status. -/
theorem Requested.withStatus {input : CreateTransactionInput} (h : Requested input t) :
    Requested input { t with status } :=
  ⟨h.transactionId, h.accountId, h.type, h.amount⟩

/-- A completed event does not depend on the status. -/
theorem IsCompletedEvent.withStatus (h : IsCompletedEvent t balance e) :
    IsCompletedEvent { t with status } balance e := by
  obtain ⟨input, ip, hr, he⟩ := h
  exact ⟨input, ip, hr.withStatus status, he⟩

/-- A ledger event does not depend on the status. -/
theorem IsLedgerUpdatedEvent.withStatus (h : IsLedgerUpdatedEvent t balance e) :
    IsLedgerUpdatedEvent { t with status } balance e := h

/-- A ledger entry does not depend on the status. -/
theorem IsEntry.withStatus (h : IsEntry t balance l) : IsEntry { t with status } balance l :=
  ⟨h.transactionId, h.accountId, h.type, h.amount, h.balanceAfter⟩

end Events

/-! ### Stages -/

/-- The stages of a record. -/
inductive Stage : Record → Prop
  | absent : Stage ⟨none, none, [], false, false⟩
  | blocked {t e} (hstatus : t.status = .BLOCKED) (he : IsBlockedEvent t e) :
      Stage ⟨some t, none, [e], false, false⟩
  | completed {t balance e} (hstatus : t.status = .COMPLETED) (hauth : t.authorizedAt ≠ none)
      (he : IsCompletedEvent t balance e) : Stage ⟨some t, none, [e], false, false⟩
  | posted {t balance e l e'} (hstatus : t.status = .COMPLETED) (hauth : t.authorizedAt ≠ none)
      (he : IsCompletedEvent t balance e) (hl : IsEntry t balance l)
      (he' : IsLedgerUpdatedEvent t balance e') : Stage ⟨some t, some l, [e, e'], true, false⟩
  | finalized {t balance e l e' e''} (hstatus : t.status = .FINALIZED)
      (hauth : t.authorizedAt ≠ none) (he : IsCompletedEvent t balance e)
      (hl : IsEntry t balance l) (he' : IsLedgerUpdatedEvent t balance e')
      (he'' : IsFinalizedEvent t balance e'') :
      Stage ⟨some t, some l, [e, e', e''], true, true⟩
  | compensated {t balance e e''} (hstatus : t.status = .BLOCKED)
      (he : IsCompletedEvent t balance e) (he'' : IsCompensatedEvent t e'') :
      Stage ⟨some t, none, [e, e''], false, false⟩
  /-- The ledger worker has posted the entry of a transaction that was reversed before. -/
  | misposted {t balance e e'' l e' settled} (hstatus : t.status = .BLOCKED)
      (he : IsCompletedEvent t balance e) (he'' : IsCompensatedEvent t e'')
      (hl : IsEntry t balance l) (he' : IsLedgerUpdatedEvent t balance e') :
      Stage ⟨some t, some l, [e, e'', e'], true, settled⟩

namespace Stage

variable {r : Record} {t : Transaction} {balance : Int} {e e' : OutboxEvent} {l : LedgerEntry}

/-- An unused `transactionId` may be used by a request that moves the balance. -/
theorem complete (h : Stage r) (hr : r.transaction = none) (hstatus : t.status = .COMPLETED)
    (hauth : t.authorizedAt ≠ none) (he : IsCompletedEvent t balance e) :
    Stage { r with transaction := some t, events := r.events ++ [e] } := by
  cases h with
  | absent => exact .completed hstatus hauth he
  | _ => cases hr

/-- An unused `transactionId` may be used by a request that is blocked. -/
theorem block (h : Stage r) (hr : r.transaction = none) (hstatus : t.status = .BLOCKED)
    (he : IsBlockedEvent t e) :
    Stage { r with transaction := some t, events := r.events ++ [e] } := by
  cases h with
  | absent => exact .blocked hstatus he
  | _ => cases hr

/-- A transaction with a completed event and no entry may be posted, compensated or not. -/
theorem post (h : Stage r) (ht : r.transaction = some t) (hnone : r.entry = none)
    (hmem : e ∈ r.events) (he : IsCompletedEvent t balance e) (hl : IsEntry t balance l)
    (he' : IsLedgerUpdatedEvent t balance e') :
    Stage { r with entry := some l, events := r.events ++ [e'], posted := true } := by
  cases h with
  | absent => cases ht
  | blocked hstatus hb =>
    obtain rfl := List.mem_singleton.mp hmem
    have := he.eventType.symm.trans hb.eventType
    simp at this
  | completed hstatus hauth hc =>
    cases ht
    obtain rfl := List.mem_singleton.mp hmem
    exact .posted hstatus hauth he hl he'
  | compensated hstatus hc hc' =>
    cases ht
    rcases List.mem_pair.mp hmem with rfl | rfl
    · exact .misposted hstatus he hc' hl he'
    · have := he.eventType.symm.trans hc'.eventType
      simp at this
  | posted => cases hnone
  | finalized => cases hnone
  | misposted => cases hnone

/-- A completed transaction with an entry may be finalized. -/
theorem finalize (h : Stage r) (ht : r.transaction = some t) (hstatus : t.status = .COMPLETED)
    (hsome : r.entry = some l) (hmem : e ∈ r.events) (he : IsLedgerUpdatedEvent t balance e)
    (he' : IsFinalizedEvent t balance e') :
    Stage { r with
      transaction := some { t with status := .FINALIZED }, events := r.events ++ [e'],
      settled := true } := by
  cases h with
  | absent => cases ht
  | blocked => cases hsome
  | completed => cases hsome
  | compensated => cases hsome
  | @posted _ _ e₁ _ e₂ hs hauth hc hl hu =>
    cases ht
    rcases List.mem_pair.mp hmem with rfl | rfl
    · have := he.eventType.symm.trans hc.eventType
      simp at this
    · exact .finalized rfl hauth (hc.withStatus _) (hl.withStatus _) hu (he.finalized_congr hu he')
  | finalized hs =>
    cases ht
    simp [hs] at hstatus
  | misposted hs =>
    cases ht
    simp [hs] at hstatus

/-- The ledger event of a transaction that is not completed may be recorded. -/
theorem pass (h : Stage r) (ht : r.transaction = some t) (hstatus : t.status ≠ .COMPLETED)
    (hmem : e ∈ r.events) (he : IsLedgerUpdatedEvent t balance e) :
    Stage { r with settled := true } := by
  cases h with
  | absent => cases ht
  | blocked hs hb =>
    obtain rfl := List.mem_singleton.mp hmem
    have := he.eventType.symm.trans hb.eventType
    simp at this
  | completed hs =>
    cases ht
    exact absurd hs hstatus
  | posted hs =>
    cases ht
    exact absurd hs hstatus
  | finalized hs hauth hc hl hu hf => exact .finalized hs hauth hc hl hu hf
  | compensated hs hc hc' =>
    rcases List.mem_pair.mp hmem with rfl | rfl
    · have := he.eventType.symm.trans hc.eventType
      simp at this
    · have := he.eventType.symm.trans hc'.eventType
      simp at this
  | misposted hs hc hc' hl hu => exact .misposted hs hc hc' hl hu

/-- A completed transaction without entry may be compensated. -/
theorem compensate (h : Stage r) (ht : r.transaction = some t) (hstatus : t.status = .COMPLETED)
    (hnone : r.entry = none) (he : IsCompensatedEvent t e) :
    Stage { r with
      transaction := some { t with status := .BLOCKED }, events := r.events ++ [e] } := by
  cases h with
  | absent => cases ht
  | blocked hs =>
    cases ht
    simp [hs] at hstatus
  | completed hs hauth hc =>
    cases ht
    exact .compensated rfl (hc.withStatus _) he
  | compensated hs =>
    cases ht
    simp [hs] at hstatus
  | posted => cases hnone
  | finalized => cases hnone
  | misposted => cases hnone

end Stage

/-- What an event of a record can be. -/
inductive Filed (r : Record) (t : Transaction) (e : OutboxEvent) : Prop
  | completed {balance} (he : IsCompletedEvent t balance e)
  | blocked (he : IsBlockedEvent t e)
  | ledgerUpdated {balance e₀ l} (he : IsLedgerUpdatedEvent t balance e)
      (he₀ : IsCompletedEvent t balance e₀) (hl : r.entry = some l)
  | finalized {balance} (he : IsFinalizedEvent t balance e)
  | compensated (he : IsCompensatedEvent t e)

/-- The events of a record belong to its transaction. -/
theorem Stage.filed {r : Record} (h : Stage r) {e : OutboxEvent} (he : e ∈ r.events) :
    ∃ t, r.transaction = some t ∧ Filed r t e := by
  cases h with
  | absent => simp at he
  | blocked _ hb =>
    obtain rfl := List.mem_singleton.mp he
    exact ⟨_, rfl, .blocked hb⟩
  | completed _ _ hc =>
    obtain rfl := List.mem_singleton.mp he
    exact ⟨_, rfl, .completed hc⟩
  | posted _ _ hc _ hu =>
    rcases List.mem_pair.mp he with rfl | rfl
    · exact ⟨_, rfl, .completed hc⟩
    · exact ⟨_, rfl, .ledgerUpdated hu hc rfl⟩
  | finalized _ _ hc _ hu hf =>
    simp only [List.mem_cons, List.not_mem_nil, or_false] at he
    rcases he with rfl | rfl | rfl
    · exact ⟨_, rfl, .completed hc⟩
    · exact ⟨_, rfl, .ledgerUpdated hu hc rfl⟩
    · exact ⟨_, rfl, .finalized hf⟩
  | compensated _ hc hc' =>
    rcases List.mem_pair.mp he with rfl | rfl
    · exact ⟨_, rfl, .completed hc⟩
    · exact ⟨_, rfl, .compensated hc'⟩
  | misposted _ hc hc' _ hu =>
    simp only [List.mem_cons, List.not_mem_nil, or_false] at he
    rcases he with rfl | rfl | rfl
    · exact ⟨_, rfl, .completed hc⟩
    · exact ⟨_, rfl, .compensated hc'⟩
    · exact ⟨_, rfl, .ledgerUpdated hu hc rfl⟩

/-- The entry of a record repeats its transaction and the balance of its completed event. -/
theorem Stage.entry {r : Record} {l : LedgerEntry} (h : Stage r) (hl : r.entry = some l) :
    ∃ t balance e, r.transaction = some t ∧ IsEntry t balance l ∧ e ∈ r.events ∧
      IsCompletedEvent t balance e := by
  cases h with
  | absent => cases hl
  | blocked => cases hl
  | completed => cases hl
  | compensated => cases hl
  | posted _ _ hc hentry =>
    cases hl
    exact ⟨_, _, _, rfl, hentry, List.mem_cons_self, hc⟩
  | finalized _ _ hc hentry =>
    cases hl
    exact ⟨_, _, _, rfl, hentry, List.mem_cons_self, hc⟩
  | misposted _ hc _ hentry =>
    cases hl
    exact ⟨_, _, _, rfl, hentry, List.mem_cons_self, hc⟩

/-- A transaction with an entry is live, unless it was reversed before. -/
theorem Stage.status_of_entry {r : Record} {t : Transaction} (h : Stage r)
    (ht : r.transaction = some t) (hl : r.entry.isSome = true) :
    t.status = .COMPLETED ∨ t.status = .FINALIZED ∨ t.status = .BLOCKED := by
  cases h with
  | absent => cases ht
  | blocked => cases hl
  | completed => cases hl
  | compensated => cases hl
  | posted hs => cases ht; exact .inl hs
  | finalized hs => cases ht; exact .inr (.inl hs)
  | misposted hs => cases ht; exact .inr (.inr hs)

/-- A finalized transaction is authorized and posted, and its finalized event repeats the entry. -/
theorem Stage.of_finalized {r : Record} {t : Transaction} (h : Stage r)
    (ht : r.transaction = some t) (hstatus : t.status = .FINALIZED) :
    t.authorizedAt ≠ none ∧ ∃ l balance, r.entry = some l ∧ IsEntry t balance l ∧
      ∀ e ∈ r.events, e.eventType = "TransactionFinalized" → IsFinalizedEvent t balance e := by
  cases h with
  | absent => cases ht
  | blocked hs => cases ht; simp [hs] at hstatus
  | completed hs => cases ht; simp [hs] at hstatus
  | posted hs => cases ht; simp [hs] at hstatus
  | compensated hs => cases ht; simp [hs] at hstatus
  | misposted hs => cases ht; simp [hs] at hstatus
  | finalized _ hauth hc hentry hu hf =>
    cases ht
    refine ⟨hauth, _, _, rfl, hentry, fun e he htype ↦ ?_⟩
    simp only [List.mem_cons, List.not_mem_nil, or_false] at he
    rcases he with rfl | rfl | rfl
    · simp [hc.eventType] at htype
    · simp [hu.eventType] at htype
    · exact hf

/-! ### Counting events -/

/-- The types of the events of a record, in order. -/
def Record.types (r : Record) : List String := r.events.map (fun e ↦ e.eventType)

namespace Stage

variable {r : Record} {t : Transaction}

/-- A used `transactionId` has exactly one completed or blocked event, an unused one has none. -/
theorem count_decided (h : Stage r) :
    r.types.count "TransactionCompleted" + r.types.count "TransactionBlocked" =
      if r.transaction.isSome then 1 else 0 := by
  cases h with
  | absent => rfl
  | blocked _ hb => simp [Record.types, hb.eventType]
  | completed _ _ hc => simp [Record.types, hc.eventType]
  | posted _ _ hc _ hu => simp [Record.types, hc.eventType, hu.eventType]
  | finalized _ _ hc _ hu hf => simp [Record.types, hc.eventType, hu.eventType, hf.eventType]
  | compensated _ hc hc' => simp [Record.types, hc.eventType, hc'.eventType]
  | misposted _ hc hc' _ hu => simp [Record.types, hc.eventType, hc'.eventType, hu.eventType]

private theorem eq_of_filter_length_le_one {l : List OutboxEvent} {p : OutboxEvent → Bool}
    {e e' : OutboxEvent} (hlength : (l.filter p).length ≤ 1) (he : e ∈ l) (hp : p e = true)
    (he' : e' ∈ l) (hp' : p e' = true) : e = e' := by
  have hmem : e ∈ l.filter p := List.mem_filter.mpr ⟨he, hp⟩
  have hmem' : e' ∈ l.filter p := List.mem_filter.mpr ⟨he', hp'⟩
  cases hl : l.filter p with
  | nil => simp [hl] at hmem
  | cons x rest =>
    have hrest : rest = [] := by
      rw [hl, List.length_cons] at hlength
      exact List.length_eq_zero_iff.mp (by omega)
    subst hrest
    rw [hl, List.mem_singleton] at hmem hmem'
    rw [hmem, hmem']

/-- The completed or blocked event of a record is unique. -/
theorem decided_unique (h : Stage r) {e e' : OutboxEvent} (he : e ∈ r.events)
    (htype : e.eventType = "TransactionCompleted" ∨ e.eventType = "TransactionBlocked")
    (he' : e' ∈ r.events)
    (htype' : e'.eventType = "TransactionCompleted" ∨ e'.eventType = "TransactionBlocked") :
    e = e' := by
  have hcount := h.count_decided
  refine eq_of_filter_length_le_one (p := fun x ↦ decide (x.eventType = "TransactionCompleted") ||
    decide (x.eventType = "TransactionBlocked")) ?_ he (by simpa using htype) he'
    (by simpa using htype')
  rw [← List.countP_eq_length_filter]
  have hsplit : r.events.countP (fun x ↦ decide (x.eventType = "TransactionCompleted") ||
      decide (x.eventType = "TransactionBlocked")) =
      r.types.count "TransactionCompleted" + r.types.count "TransactionBlocked" := by
    rw [Record.types, List.count_eq_countP, List.count_eq_countP, List.countP_map, List.countP_map]
    generalize r.events = events
    induction events with
    | nil => rfl
    | cons x events ih =>
      by_cases hcompleted : x.eventType = "TransactionCompleted"
      · simp [hcompleted, ih, Nat.add_right_comm]
      · by_cases hblocked : x.eventType = "TransactionBlocked" <;>
          simp [hcompleted, hblocked, ih, Nat.add_assoc]
  rw [hsplit, hcount]
  split <;> omega

/-- A transaction has one ledger event if it has an entry, and none otherwise. -/
theorem count_updated (h : Stage r) :
    r.types.count "LedgerUpdated" = if r.entry.isSome then 1 else 0 := by
  cases h with
  | absent => rfl
  | blocked _ hb => simp [Record.types, hb.eventType]
  | completed _ _ hc => simp [Record.types, hc.eventType]
  | posted _ _ hc _ hu => simp [Record.types, hc.eventType, hu.eventType]
  | finalized _ _ hc _ hu hf => simp [Record.types, hc.eventType, hu.eventType, hf.eventType]
  | compensated _ hc hc' => simp [Record.types, hc.eventType, hc'.eventType]
  | misposted _ hc hc' _ hu => simp [Record.types, hc.eventType, hc'.eventType, hu.eventType]

/-- The ledger worker has recorded the completed event of exactly the posted transactions. -/
theorem posted_iff (h : Stage r) : r.posted = r.entry.isSome := by
  cases h <;> rfl

/-- A transaction has one finalized event if it is finalized, and none otherwise. -/
theorem count_finalized (h : Stage r) (ht : r.transaction = some t) :
    r.types.count "TransactionFinalized" = if t.status = .FINALIZED then 1 else 0 := by
  cases h with
  | absent => cases ht
  | blocked hs hb => cases ht; simp [Record.types, hs, hb.eventType]
  | completed hs _ hc => cases ht; simp [Record.types, hs, hc.eventType]
  | posted hs _ hc _ hu => cases ht; simp [Record.types, hs, hc.eventType, hu.eventType]
  | finalized hs _ hc _ hu hf =>
    cases ht
    simp [Record.types, hs, hc.eventType, hu.eventType, hf.eventType]
  | compensated hs hc hc' => cases ht; simp [Record.types, hs, hc.eventType, hc'.eventType]
  | misposted hs hc hc' _ hu =>
    cases ht
    simp [Record.types, hs, hc.eventType, hc'.eventType, hu.eventType]

/-- A compensated transaction is blocked. -/
theorem blocked_of_compensated (h : Stage r)
    (hcount : 0 < r.types.count "TransactionCompensated") :
    ∃ t, r.transaction = some t ∧ t.status = .BLOCKED := by
  cases h with
  | absent => simp [Record.types] at hcount
  | blocked hs => exact ⟨_, rfl, hs⟩
  | completed _ _ hc => simp [Record.types, hc.eventType] at hcount
  | posted _ _ hc _ hu => simp [Record.types, hc.eventType, hu.eventType] at hcount
  | finalized _ _ hc _ hu hf =>
    simp [Record.types, hc.eventType, hu.eventType, hf.eventType] at hcount
  | compensated hs => exact ⟨_, rfl, hs⟩
  | misposted hs => exact ⟨_, rfl, hs⟩

/-- A transaction with a blocked event is blocked. -/
theorem blocked_of_blockedEvent (h : Stage r) (hcount : 0 < r.types.count "TransactionBlocked") :
    ∃ t, r.transaction = some t ∧ t.status = .BLOCKED := by
  cases h with
  | absent => simp [Record.types] at hcount
  | blocked hs => exact ⟨_, rfl, hs⟩
  | completed _ _ hc => simp [Record.types, hc.eventType] at hcount
  | posted _ _ hc _ hu => simp [Record.types, hc.eventType, hu.eventType] at hcount
  | finalized _ _ hc _ hu hf =>
    simp [Record.types, hc.eventType, hu.eventType, hf.eventType] at hcount
  | compensated hs => exact ⟨_, rfl, hs⟩
  | misposted hs => exact ⟨_, rfl, hs⟩

/-- A blocked transaction with a completed event has been compensated. -/
theorem compensated_of_blocked (h : Stage r) (ht : r.transaction = some t)
    (hstatus : t.status = .BLOCKED) (hcount : 0 < r.types.count "TransactionCompleted") :
    0 < r.types.count "TransactionCompensated" := by
  cases h with
  | absent => cases ht
  | blocked _ hb => simp [Record.types, hb.eventType] at hcount
  | completed hs => cases ht; simp [hs] at hstatus
  | posted hs => cases ht; simp [hs] at hstatus
  | finalized hs => cases ht; simp [hs] at hstatus
  | compensated _ _ hc' => simp [Record.types, hc'.eventType]
  | misposted _ _ hc' => simp [Record.types, hc'.eventType]

/-- A completed event belongs to a transaction that is not blocked, or that has been compensated,
and only one of the two. -/
theorem completed_iff (h : Stage r) (ht : r.transaction = some t) :
    (0 < r.types.count "TransactionCompleted" ↔
      t.status ≠ .BLOCKED ∨ 0 < r.types.count "TransactionCompensated") ∧
      ¬ (t.status ≠ .BLOCKED ∧ 0 < r.types.count "TransactionCompensated") := by
  cases h with
  | absent => cases ht
  | blocked hs hb => cases ht; simp [Record.types, hs, hb.eventType]
  | completed hs _ hc => cases ht; simp [Record.types, hs, hc.eventType]
  | posted hs _ hc _ hu => cases ht; simp [Record.types, hs, hc.eventType, hu.eventType]
  | finalized hs _ hc _ hu hf =>
    cases ht
    simp [Record.types, hs, hc.eventType, hu.eventType, hf.eventType]
  | compensated hs hc hc' => cases ht; simp [Record.types, hs, hc.eventType, hc'.eventType]
  | misposted hs hc hc' _ hu =>
    cases ht
    simp [Record.types, hs, hc.eventType, hc'.eventType, hu.eventType]

/-- Transactions are never pending. -/
theorem not_pending (h : Stage r) (ht : r.transaction = some t) (hs : t.status ≠ .BLOCKED) :
    t.status = .COMPLETED ∨ t.status = .FINALIZED := by
  cases h with
  | absent => cases ht
  | blocked hb => cases ht; exact absurd hb hs
  | completed hc => cases ht; exact .inl hc
  | posted hc => cases ht; exact .inl hc
  | finalized hf => cases ht; exact .inr hf
  | compensated hb => cases ht; exact absurd hb hs
  | misposted hb => cases ht; exact absurd hb hs

/-- A transaction is finalized or compensated at most once, and never both. -/
theorem count_settled (h : Stage r) :
    r.types.count "TransactionFinalized" + r.types.count "TransactionCompensated" ≤ 1 := by
  cases h with
  | absent => simp [Record.types]
  | blocked _ hb => simp [Record.types, hb.eventType]
  | completed _ _ hc => simp [Record.types, hc.eventType]
  | posted _ _ hc _ hu => simp [Record.types, hc.eventType, hu.eventType]
  | finalized _ _ hc _ hu hf => simp [Record.types, hc.eventType, hu.eventType, hf.eventType]
  | compensated _ hc hc' => simp [Record.types, hc.eventType, hc'.eventType]
  | misposted _ hc hc' _ hu => simp [Record.types, hc.eventType, hc'.eventType, hu.eventType]

end Stage

end Banking
