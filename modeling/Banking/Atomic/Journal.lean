import Banking.Atomic.Balance
import Banking.Atomic.Lifecycle
import Banking.Replay.Routes

/-!
# The journal of an account

The completed events of an account correspond one to one to the transactions that have moved its
balance. What they add up to is the effect of the live transactions and of those that have been
compensated since, which leave no trace among the completed events.
-/

namespace Banking

open Relational (Table)

namespace Database

/-- A completed event is filed under the transaction. -/
def isCompleted (db : Database) (t : Transaction) : Bool :=
  decide (0 < db.eventCount t.transactionId "TransactionCompleted")

/-- A compensated event is filed under the transaction. -/
def isCompensated (db : Database) (t : Transaction) : Bool :=
  decide (0 < db.eventCount t.transactionId "TransactionCompensated")

/-- What the compensated transactions of an account add up to. -/
def compensatedSum (db : Database) (accountId : String) : Int :=
  ((db.transactions.rows.filter
    (fun t ↦ decide (t.accountId = accountId) && db.isCompensated t)).map
      Transaction.signedAmount).sum

/-- What the transaction with this identifier does to the balance of its account. -/
def amountOf (db : Database) (transactionId : String) : Int :=
  ((db.transactions.find? transactionId).map Transaction.signedAmount).getD 0

end Database

/-- A payload field. -/
def payloadField (key : String) : Json → Option Json
  | .obj fields => fields.lookup key
  | _ => none

variable {db : Database} {accountId : String}

/-! ### Events and transactions -/

/-- The payload of a completed event names the account of its transaction. -/
theorem IsCompletedEvent.isAccountPayload {t : Transaction} {balance : Int} {e : OutboxEvent}
    (h : IsCompletedEvent t balance e) (accountId : String) :
    isAccountPayload accountId e.payload = (t.accountId == accountId) := by
  obtain ⟨input, ip, -, he⟩ := h
  rw [he]
  rfl

/-- The completed events of an account belong to its transactions. -/
theorem Consistent.mem_accountEvents (h : Consistent db) {e : OutboxEvent}
    (he : e ∈ db.accountEvents accountId) :
    ∃ t balance, db.transactions.find? e.transactionId = some t ∧ t.accountId = accountId ∧
      IsCompletedEvent t balance e := by
  obtain ⟨hrow, hboth⟩ := List.mem_filter.mp he
  simp only [Bool.and_eq_true, decide_eq_true_eq] at hboth
  obtain ⟨t, balance, ht, hcompleted⟩ := h.completedEvent (Table.find?_of_mem hrow) hboth.1
  refine ⟨t, balance, hcompleted.transactionId ▸ ht, ?_, hcompleted⟩
  rw [hcompleted.isAccountPayload] at hboth
  simpa using hboth.2

private theorem events_nodup (h : Consistent db) (accountId : String) :
    ((db.accountEvents accountId).map (fun e ↦ e.transactionId)).Nodup := by
  refine List.nodup_iff_count_le_one.mpr fun tid ↦ ?_
  have hdecided := (h.stage tid).count_decided
  rw [← Database.eventCount_eq, ← Database.eventCount_eq] at hdecided
  have hone : db.eventCount tid "TransactionCompleted" ≤ 1 := by
    split at hdecided <;> omega
  refine Nat.le_trans ?_ hone
  rw [List.count_eq_countP, List.countP_map, Database.accountEvents, List.countP_filter]
  refine List.countP_mono_left fun e _ hcount ↦ ?_
  simp only [Function.comp_apply, Bool.and_eq_true, decide_eq_true_eq, beq_iff_eq] at hcount ⊢
  exact ⟨hcount.1, hcount.2.1⟩

private theorem transactions_nodup (p : Transaction → Bool) :
    ((db.transactions.rows.filter p).map Transaction.transactionId).Nodup :=
  db.transactions.unique.sublist (List.filter_sublist.map _)

/-- The completed events of an account are those of its completed transactions, one of each. -/
private theorem events_perm (h : Consistent db) (accountId : String) :
    ((db.accountEvents accountId).map (fun e ↦ e.transactionId)).Perm
      ((db.transactions.rows.filter
        (fun t ↦ decide (t.accountId = accountId) && db.isCompleted t)).map
          Transaction.transactionId) := by
  refine (List.perm_ext_iff_of_nodup (events_nodup h accountId) (transactions_nodup _)).mpr
    fun tid ↦ ?_
  constructor
  · intro hmem
    obtain ⟨e, he, rfl⟩ := List.mem_map.mp hmem
    obtain ⟨t, balance, ht, haccount, hcompleted⟩ := h.mem_accountEvents he
    have hcount : 0 < db.eventCount t.transactionId "TransactionCompleted" :=
      List.countP_pos_iff.mpr ⟨e, (List.mem_filter.mp he).1, by
        simp [hcompleted.transactionId, hcompleted.eventType]⟩
    refine List.mem_map.mpr ⟨t, List.mem_filter.mpr ⟨Table.mem_of_find? ht, ?_⟩,
      Table.key_of_find? ht⟩
    simp [haccount, Database.isCompleted, hcount]
  · intro hmem
    obtain ⟨t, ht, rfl⟩ := List.mem_map.mp hmem
    obtain ⟨hrow, hboth⟩ := List.mem_filter.mp ht
    simp only [Database.isCompleted, Bool.and_eq_true, decide_eq_true_eq] at hboth
    obtain ⟨e, he, hfiled⟩ := List.countP_pos_iff.mp hboth.2
    simp only [Bool.and_eq_true, decide_eq_true_eq] at hfiled
    obtain ⟨t', balance, ht', hcompleted⟩ := h.completedEvent (Table.find?_of_mem he) hfiled.2
    have hsame : t' = t := by
      have hkey : t'.transactionId = t.transactionId :=
        hcompleted.transactionId.symm.trans hfiled.1
      rw [hkey, Table.find?_of_mem hrow] at ht'
      exact (Option.some.inj ht').symm
    rw [hsame] at hcompleted
    refine List.mem_map.mpr ⟨e, List.mem_filter.mpr ⟨he, ?_⟩, hfiled.1⟩
    simp [hfiled.2, hcompleted.isAccountPayload, hboth.1]

/-! ### What the journal adds up to -/

private theorem sum_completed {completed compensated : Transaction → Bool}
    {rows : List Transaction}
    (h : ∀ t ∈ rows, completed t = (t.isLive || compensated t) ∧
      (t.isLive && compensated t) = false) :
    ((rows.filter (fun t ↦ decide (t.accountId = accountId) && completed t)).map
      Transaction.signedAmount).sum =
      (rows.map (effect accountId)).sum +
        ((rows.filter (fun t ↦ decide (t.accountId = accountId) && compensated t)).map
          Transaction.signedAmount).sum := by
  induction rows with
  | nil => rfl
  | cons t rows ih =>
    obtain ⟨⟨hor, hand⟩, hrest⟩ := List.forall_mem_cons.mp h
    rw [List.map_cons, List.sum_cons, List.filter_cons, List.filter_cons, hor]
    have ih := ih hrest
    by_cases haccount : t.accountId = accountId
    · cases hlive : t.isLive <;> cases hcomp : compensated t <;>
        simp [effect, haccount, hlive, hcomp] at hand ⊢ <;> omega
    · simp only [effect, haccount, decide_false, Bool.false_and, Bool.false_eq_true, if_false,
        false_and]
      omega

private theorem isCompleted_eq (h : Consistent db) {t : Transaction}
    (ht : t ∈ db.transactions.rows) :
    db.isCompleted t = (t.isLive || db.isCompensated t) ∧
      (t.isLive && db.isCompensated t) = false := by
  have hfind := Table.find?_of_mem ht
  have hstage := h.stage t.transactionId
  obtain ⟨hiff, hnot⟩ := hstage.completed_iff hfind
  rw [← Database.eventCount_eq, ← Database.eventCount_eq] at hiff
  rw [← Database.eventCount_eq] at hnot
  have hlive : t.isLive = true ↔ t.status ≠ .BLOCKED := by
    constructor
    · intro hl hb
      simp [Transaction.isLive, hb] at hl
    · intro hs
      rcases hstage.not_pending hfind hs with hc | hf
      · simp [Transaction.isLive, hc]
      · simp [Transaction.isLive, hf]
  constructor
  · rw [Bool.eq_iff_iff]
    simp only [Database.isCompleted, Database.isCompensated, Bool.or_eq_true, decide_eq_true_eq,
      hlive]
    exact hiff
  · rw [Bool.and_eq_false_imp]
    intro hl
    simp only [Database.isCompensated, decide_eq_false_iff_not]
    exact fun hc ↦ hnot ⟨hlive.mp hl, hc⟩

/-- The completed events of an account add up to the effect of its live transactions and of the
compensated ones. -/
theorem Consistent.journal_sum (h : Consistent db) (accountId : String) :
    ((db.accountEvents accountId).map (fun e ↦ db.amountOf e.transactionId)).sum =
      db.netEffect accountId + db.compensatedSum accountId := by
  have hperm := (events_perm h accountId).map db.amountOf
  rw [List.map_map, List.map_map] at hperm
  refine hperm.sum_eq.trans (Eq.trans ?_ (sum_completed fun t ↦ isCompleted_eq h))
  congr 1
  refine List.map_congr_left fun t ht ↦ ?_
  simp [Database.amountOf, Table.find?_of_mem (List.mem_filter.mp ht).1]

end Banking
