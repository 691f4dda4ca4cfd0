import Banking.Atomic.Lifecycle
import Mathlib.Algebra.Order.BigOperators.Group.List

/-!
# The fraud gate

`create` looks at the minute that ends with its own insert. That bounds every minute: a row
enters a window last, and then the aggregates behind its admission covered the whole window.
-/

namespace Banking

open Js (Date)
open Relational (Table)

namespace Database

/-- The outbox holds a `TransactionCompleted` event of the transaction. -/
def hasCompleted (db : Database) (transactionId : String) : Bool :=
  (db.trail transactionId).any (fun e ↦ e.eventType = "TransactionCompleted")

/-- The row moved the balance of an account of the user, and was created within 60 000 ms from
`start` on. -/
def inWindow (db : Database) (userId : String) (start : Date) (t : Transaction) : Bool :=
  db.owns userId t && decide (start ≤ t.createdAt) && decide (t.createdAt ≤ start + 60000) &&
    db.hasCompleted t.transactionId

/-- The rows of a user's window. -/
def window (db : Database) (userId : String) (start : Date) : List Transaction :=
  db.transactions.rows.filter (db.inWindow userId start)

end Database

/-- What the debits among the rows sum to. -/
def debits (rows : List Transaction) : Int :=
  ((rows.filter (fun t ↦ t.type = .DEBIT)).map Transaction.amount).sum

/-- Every window of every user is within both limits. -/
structure Gate (d : Deployment) (db : Database) : Prop where
  count : ∀ userId start, (db.window userId start).length ≤ d.config.MAX_TXN
  amount : ∀ userId start, debits (db.window userId start) ≤ d.config.FRAUD_TXN_AMOUNT

variable {d : Deployment} {call : Call} {own : Lock → Prop} {db db' : Database}

/-- Fewer rows of positive amount sum to less. -/
theorem debits_le {rows rows' : List Transaction} (h : rows.Sublist rows')
    (hpos : ∀ t ∈ rows', 0 < t.amount) : debits rows ≤ debits rows' := by
  refine List.Sublist.sum_le_sum ((h.filter _).map _) fun n hn ↦ ?_
  obtain ⟨t, ht, rfl⟩ := List.mem_map.mp hn
  exact Int.le_of_lt (hpos t (List.mem_filter.mp ht).1)

/-- Before any transaction all windows are empty. -/
theorem Gate.opening (d : Deployment) (accounts : Table Account.id) :
    Gate d (Database.opening accounts) where
  count _ _ := Nat.zero_le _
  amount _ _ := Int.natCast_nonneg _

private theorem hasCompleted_addOutboxEvent (db : Database) {e : OutboxEvent}
    (he : db.outboxEvents.find? e.id = none) (tid : String) :
    (db.addOutboxEvent e).hasCompleted tid = (db.hasCompleted tid ||
      decide (e.transactionId = tid ∧ e.eventType = "TransactionCompleted")) := by
  rw [Database.hasCompleted, trail_addOutboxEvent db he, List.any_append]
  by_cases htid : e.transactionId = tid <;> simp [Database.hasCompleted, htid]

private theorem hasCompleted_fresh (h : Consistent db) {tid : String}
    (ht : db.transactions.find? tid = none) : db.hasCompleted tid = false := by
  have hs := h.stage tid
  have hr : (db.record tid).transaction = none := ht
  have hevents : (db.record tid).events = [] := by
    generalize db.record tid = r at hs hr
    cases hs with
    | absent => rfl
    | _ => cases hr
  have htrail : db.trail tid = [] := hevents
  rw [Database.hasCompleted, htrail]
  rfl

/-! ### A row that moves a balance -/

private theorem start_le {a b c e : Int} (hab : a + 60000 ≤ b) (hbc : b ≤ c + 60000)
    (hce : c ≤ e) : a ≤ e := by omega

section Complete

variable {input : CreateTransactionInput} {request : Request} {account : Account}
variable {row : Transaction}

/-- Rows of a window that a new row enters were counted when it was admitted. -/
private theorem window_sublist {userId : String} {start countFrom : Date}
    (hfrom : countFrom + 60000 ≤ row.createdAt) (hstart : row.createdAt ≤ start + 60000) :
    (db.window userId start).Sublist (db.recent userId countFrom) := by
  refine List.monotone_filter_right _ fun t ht ↦ ?_
  simp only [Database.inWindow, Bool.and_eq_true, decide_eq_true_eq] at ht ⊢
  exact ⟨ht.1.1.1, start_le hfrom hstart ht.1.1.2⟩

private theorem count_of_cleared (hclear : Cleared d input request own db account row)
    {start : Date} (hstart : row.createdAt ≤ start + 60000) :
    (db.window account.userId start ++ [row]).length ≤ d.config.MAX_TXN := by
  obtain ⟨countFrom, hfrom, hcount⟩ := hclear.velocity
  have hle := (window_sublist hfrom hstart :
    (db.window account.userId start).Sublist (db.recent account.userId countFrom)).length_le
  rw [List.length_append, List.length_singleton]
  omega

private theorem debits_append (rows : List Transaction) (t : Transaction) :
    debits (rows ++ [t]) = debits rows + if t.type = .DEBIT then t.amount else 0 := by
  by_cases ht : t.type = .DEBIT <;> simp [debits, ht]

private theorem amount_of_cleared (hc : Consistent db) (hg : Gate d db)
    (hclear : Cleared d input request own db account row) {start : Date}
    (hstart : row.createdAt ≤ start + 60000) :
    debits (db.window account.userId start ++ [row]) ≤ d.config.FRAUD_TXN_AMOUNT := by
  rw [debits_append]
  obtain ⟨id, authorizedAt, createdAt, rfl⟩ := hclear.inserted
  split
  · next htype =>
    obtain ⟨amtFrom, hfrom, hamt⟩ := hclear.amount
    have hle : debits (db.window account.userId start) ≤ Sql.debitSum db account.userId amtFrom :=
      debits_le (window_sublist hfrom hstart) fun t ht ↦
        hc.amount_pos (Table.find?_of_mem (List.mem_filter.mp ht).1)
    have htotal : totalTxnAmount input (Sql.debitSum db account.userId amtFrom) =
        Sql.debitSum db account.userId amtFrom + input.amountMinor := if_pos htype
    rw [htotal] at hamt
    exact Int.le_trans (Int.add_le_add_right hle _) hamt
  · rw [Int.add_zero]
    exact hg.amount _ _

end Complete

/-! ### What a commit does to a window -/

private theorem window_insert {row : Transaction}
    (hfresh : db.transactions.find? row.transactionId = none)
    (hrows : db'.transactions = db.transactions.insert row)
    (howns : ∀ userId t, db'.owns userId t = db.owns userId t)
    (hcompleted : ∀ t ∈ db.transactions.rows,
      db'.hasCompleted t.transactionId = db.hasCompleted t.transactionId)
    (userId : String) (start : Date) :
    db'.window userId start =
      db.window userId start ++ if db'.inWindow userId start row = true then [row] else [] := by
  rw [Database.window, hrows, Table.rows_insert hfresh, List.filter_append]
  congr 1
  · refine List.filter_congr fun t ht ↦ ?_
    rw [Database.inWindow, Database.inWindow, howns, hcompleted t ht]
  · simp [List.filter_cons]

private theorem window_setStatus {t : Transaction} {status : TransactionStatus}
    (hrows : db'.transactions = (db.setStatus t.transactionId status).transactions)
    (howns : ∀ userId t, db'.owns userId t = db.owns userId t)
    (hcompleted : ∀ tid, db'.hasCompleted tid = db.hasCompleted tid)
    (userId : String) (start : Date) :
    db'.window userId start = (db.window userId start).map
      (fun r ↦ if r.transactionId = t.transactionId then { r with status } else r) := by
  rw [Database.window, hrows, Database.transactions_setStatus, Table.rows_modify, List.filter_map]
  congr 1
  refine List.filter_congr fun r _ ↦ ?_
  simp only [Function.comp_apply, Database.inWindow, howns, hcompleted]
  split <;> rfl

private theorem debits_map_status (rows : List Transaction) (tid : String)
    (status : TransactionStatus) :
    debits (rows.map (fun r ↦ if r.transactionId = tid then { r with status } else r)) =
      debits rows := by
  induction rows with
  | nil => rfl
  | cons r rows ih =>
    have hsplit : ∀ (t : Transaction) rows, debits (t :: rows) =
        (if t.type = .DEBIT then t.amount else 0) + debits rows := by
      intro t rows
      by_cases ht : t.type = .DEBIT <;> simp [debits, ht]
    rw [List.map_cons, hsplit, hsplit, ih]
    split <;> rfl

private theorem Gate.keep (h : Gate d db) (hrows : db'.transactions = db.transactions)
    (howns : ∀ userId t, db'.owns userId t = db.owns userId t)
    (hcompleted : ∀ tid, db'.hasCompleted tid = db.hasCompleted tid) : Gate d db' := by
  have hwindow : ∀ userId start, db'.window userId start = db.window userId start := by
    intro userId start
    rw [Database.window, hrows]
    refine List.filter_congr fun t _ ↦ ?_
    rw [Database.inWindow, Database.inWindow, howns, hcompleted]
  exact ⟨fun u b ↦ hwindow u b ▸ h.count u b, fun u b ↦ hwindow u b ▸ h.amount u b⟩

private theorem Gate.keep_status (h : Gate d db) {t : Transaction} {status : TransactionStatus}
    (hrows : db'.transactions = (db.setStatus t.transactionId status).transactions)
    (howns : ∀ userId t, db'.owns userId t = db.owns userId t)
    (hcompleted : ∀ tid, db'.hasCompleted tid = db.hasCompleted tid) : Gate d db' := by
  have hwindow := window_setStatus hrows howns hcompleted
  refine ⟨fun u b ↦ ?_, fun u b ↦ ?_⟩
  · rw [hwindow, List.length_map]
    exact h.count u b
  · rw [hwindow, debits_map_status]
    exact h.amount u b

private theorem Gate.enter (hc : Consistent db) (h : Gate d db) {input : CreateTransactionInput}
    {request : Request} {account : Account} {row : Transaction}
    (hclear : Cleared d input request own db account row)
    (hrows : db'.transactions = db.transactions.insert row)
    (howns : ∀ userId t, db'.owns userId t = db.owns userId t)
    (hcompleted : ∀ tid, db'.hasCompleted tid =
      (db.hasCompleted tid || decide (row.transactionId = tid))) : Gate d db' := by
  obtain ⟨id, authorizedAt, createdAt, rfl⟩ := hclear.inserted
  have hold : ∀ t ∈ db.transactions.rows,
      db'.hasCompleted t.transactionId = db.hasCompleted t.transactionId := by
    intro t ht
    have hne : input.transactionId ≠ t.transactionId :=
      Ne.symm (Table.find?_eq_none.mp hclear.fresh t ht)
    rw [hcompleted]
    simp [newTransaction, hne]
  have hfresh : db.transactions.find?
      (newTransaction input id authorizedAt createdAt).transactionId = none := hclear.fresh
  have hwindow := window_insert hfresh hrows howns hold
  have hnew : ∀ userId start, db'.inWindow userId start
      (newTransaction input id authorizedAt createdAt) = true →
      account.userId = userId ∧ createdAt ≤ start + 60000 := by
    intro userId start hin
    simp only [Database.inWindow, howns, Bool.and_eq_true, decide_eq_true_eq] at hin
    refine ⟨?_, hin.1.2⟩
    simpa [Database.owns, newTransaction, hclear.found] using hin.1.1.1
  constructor
  · intro userId start
    rw [hwindow]
    split
    · next hin =>
      obtain ⟨rfl, hstart⟩ := hnew _ _ hin
      exact count_of_cleared hclear hstart
    · rw [List.append_nil]
      exact h.count userId start
  · intro userId start
    rw [hwindow]
    split
    · next hin =>
      obtain ⟨rfl, hstart⟩ := hnew _ _ hin
      exact amount_of_cleared hc h hclear hstart
    · rw [List.append_nil]
      exact h.amount userId start

private theorem Gate.pass_by (h : Gate d db) {row : Transaction}
    (hfresh : db.transactions.find? row.transactionId = none)
    (hrows : db'.transactions = db.transactions.insert row)
    (howns : ∀ userId t, db'.owns userId t = db.owns userId t)
    (hcompleted : ∀ t ∈ db.transactions.rows,
      db'.hasCompleted t.transactionId = db.hasCompleted t.transactionId)
    (hrow : db'.hasCompleted row.transactionId = false) : Gate d db' := by
  have hwindow : ∀ userId start, db'.window userId start = db.window userId start := by
    intro userId start
    rw [window_insert hfresh hrows howns hcompleted, if_neg (by simp [Database.inWindow, hrow]),
      List.append_nil]
  exact ⟨fun u b ↦ hwindow u b ▸ h.count u b, fun u b ↦ hwindow u b ▸ h.amount u b⟩

private theorem hasCompleted_other (db : Database) {e : OutboxEvent}
    (he : db.outboxEvents.find? e.id = none) (htype : e.eventType ≠ "TransactionCompleted")
    (tid : String) : (db.addOutboxEvent e).hasCompleted tid = db.hasCompleted tid := by
  rw [hasCompleted_addOutboxEvent db he]
  simp [htype]

/-- Every commit keeps every window within the limits. -/
theorem Gate.step (hc : Consistent db) (h : Gate d db) (hs : Commits d call own db db') :
    Gate d db' := by
  have howns : ∀ userId t, db'.owns userId t = db.owns userId t :=
    Evolves.owns (Relational.Evolves.single hs)
  cases hs with
  | @complete input request _ _ account row event hclear hevent hunsent =>
    refine h.enter hc hclear rfl howns fun tid ↦ ?_
    have htid : event.transactionId = row.transactionId := by
      obtain ⟨id, authorizedAt, createdAt, rfl⟩ := hclear.inserted
      rw [hevent]
      rfl
    have htype : event.eventType = "TransactionCompleted" := by rw [hevent]; rfl
    refine (hasCompleted_addOutboxEvent ((db.addTransaction row).setBalance _ _) hunsent.absent
      tid).trans ?_
    simp only [htid, htype, and_true]
    rfl
  | @block input request _ _ account row event reason hadm hevent hunsent =>
    have htype : event.eventType ≠ "TransactionCompleted" := by rw [hevent]; simp [blockedEvent]
    have hcompleted := hasCompleted_other (db.addTransaction { row with status := .BLOCKED })
      hunsent.absent htype
    obtain ⟨id, authorizedAt, createdAt, rfl⟩ := hadm.inserted
    exact h.pass_by hadm.fresh rfl howns (fun t _ ↦ hcompleted _)
      ((hcompleted input.transactionId).trans (hasCompleted_fresh hc hadm.fresh))
  | post hfind ht hcompleted hentry hnone hposted hunsent =>
    exact h.keep rfl howns (hasCompleted_other (db.addLedgerEntry _) hunsent.absent
      (by simp [hposted.eventType]))
  | skip => exact h.keep rfl howns fun _ ↦ rfl
  | finalize hfind ht hstatus hupdated hentry hfinalized hunsent =>
    exact h.keep_status rfl howns (hasCompleted_other (db.setStatus _ _) hunsent.absent
      (by simp [hfinalized.eventType]))
  | pass => exact h.keep rfl howns fun _ ↦ rfl
  | @compensate _ _ t account balance event ht hstatus hentry haccount hbalance hnonneg hevent
      hunsent =>
    have hevent : IsCompensatedEvent t event := ⟨balance, hevent⟩
    exact h.keep_status rfl howns (hasCompleted_other ((db.setBalance _ _).setStatus _ _)
      hunsent.absent (by simp [hevent.eventType]))

end Banking
