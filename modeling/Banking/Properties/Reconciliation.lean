import Banking.Properties.Balance

/-!
# The ledger reconciles with the balances

The ledger lags behind the balances, and late deliveries post entries of transactions that were
reversed. In every reachable state these two are the whole difference between an account's balance
and its ledger.
-/

namespace Banking

open Relational (Table)

/-- What a ledger entry says of the balance of its account. -/
def LedgerEntry.signedAmount (l : LedgerEntry) : Int :=
  match l.type with
  | .DEBIT => -l.amount
  | .CREDIT => l.amount

namespace Database

/-- What the ledger entries of an account add up to. -/
def ledgerSum (db : Database) (accountId : String) : Int :=
  ((db.ledgerEntries.rows.filter (fun l ↦ l.accountId = accountId)).map
    LedgerEntry.signedAmount).sum

/-- The completed transactions of an account that have no ledger entry yet. -/
def unpostedSum (db : Database) (accountId : String) : Int :=
  ((db.transactions.rows.filter (fun t ↦ decide (t.accountId = accountId) &&
    decide (t.status = .COMPLETED) && (db.ledgerEntries.find? t.transactionId).isNone)).map
      Transaction.signedAmount).sum

/-- The reversed transactions of an account that have a ledger entry nevertheless. -/
def mispostedSum (db : Database) (accountId : String) : Int :=
  ((db.transactions.rows.filter (fun t ↦ decide (t.accountId = accountId) &&
    decide (t.status = .BLOCKED) && (db.ledgerEntries.find? t.transactionId).isSome)).map
      Transaction.signedAmount).sum

end Database

variable {d : Deployment} {accounts : Table Account.id} {now : Js.Date} {s : SystemState}
variable {db : Database} {accountId : String}

/-- Rows that are left out add nothing. -/
private theorem sum_filter {α : Type} (p : α → Bool) (g : α → Int) (rows : List α) :
    ((rows.filter p).map g).sum = (rows.map fun x ↦ if p x then g x else 0).sum := by
  induction rows with
  | nil => rfl
  | cons x rows ih =>
    cases hp : p x with
    | true => simp [hp, ih]
    | false => simp [hp, ih]

/-- An entry moves the ledger as its transaction moves the balance. -/
private theorem IsEntry.signedAmount {t : Transaction} {balance : Int} {l : LedgerEntry}
    (h : IsEntry t balance l) : l.signedAmount = t.signedAmount := by
  cases htype : t.type <;>
    simp [LedgerEntry.signedAmount, Transaction.signedAmount, h.type, h.amount, htype]

/-- The entries of a consistent database add up along its transactions. -/
private theorem Consistent.ledgerSum_eq (hc : Consistent db) (accountId : String) :
    db.ledgerSum accountId = (db.transactions.rows.map fun t ↦
      ((db.ledgerEntries.find? t.transactionId).map fun l ↦
        if l.accountId = accountId then l.signedAmount else 0).getD 0).sum := by
  have href : ∀ l ∈ db.ledgerEntries.rows,
      (db.transactions.find? l.transactionId).isSome := by
    intro l hl
    by_contra hnone
    have := hc.unposted (Option.not_isSome_iff_eq_none.mp hnone)
    rw [Table.find?_of_mem hl] at this
    cases this
  rw [Database.ledgerSum, sum_filter]
  simp only [decide_eq_true_eq]
  exact Table.sum_join db.transactions db.ledgerEntries href _

/-- What a transaction adds to the balance is what its entry adds to the ledger, except before the
posting and after a reversal. -/
private theorem Consistent.effect_eq (hc : Consistent db) {t : Transaction}
    (ht : t ∈ db.transactions.rows) (accountId : String) :
    effect accountId t =
      ((db.ledgerEntries.find? t.transactionId).map fun l ↦
        if l.accountId = accountId then l.signedAmount else 0).getD 0 +
      (if decide (t.accountId = accountId) && decide (t.status = .COMPLETED) &&
        (db.ledgerEntries.find? t.transactionId).isNone then t.signedAmount else 0) -
      (if decide (t.accountId = accountId) && decide (t.status = .BLOCKED) &&
        (db.ledgerEntries.find? t.transactionId).isSome then t.signedAmount else 0) := by
  have hs := hc.stage t.transactionId
  have hr : (db.record t.transactionId).transaction = some t := Table.find?_of_mem ht
  change _ = ((db.record t.transactionId).entry.map _).getD 0 + (if _ && Option.isNone
    (db.record t.transactionId).entry then _ else _) - (if _ && Option.isSome
      (db.record t.transactionId).entry then _ else _)
  generalize db.record t.transactionId = r at hs hr
  by_cases haccount : t.accountId = accountId
  · cases hs with
    | absent => cases hr
    | blocked hstatus => cases hr; simp [effect, Transaction.isLive, hstatus]
    | completed hstatus => cases hr; simp [effect, Transaction.isLive, hstatus]
    | posted hstatus _ _ hl =>
      cases hr
      simp [effect, Transaction.isLive, hstatus, hl.accountId, hl.signedAmount, haccount]
    | finalized hstatus _ _ hl =>
      cases hr
      simp [effect, Transaction.isLive, hstatus, hl.accountId, hl.signedAmount, haccount]
    | compensated hstatus => cases hr; simp [effect, Transaction.isLive, hstatus]
    | misposted hstatus _ _ hl =>
      cases hr
      simp [effect, Transaction.isLive, hstatus, hl.accountId, hl.signedAmount, haccount]
  · cases hs with
    | absent => cases hr
    | blocked => cases hr; simp [effect, haccount]
    | completed => cases hr; simp [effect, haccount]
    | posted _ _ _ hl => cases hr; simp [effect, hl.accountId, haccount]
    | finalized _ _ _ hl => cases hr; simp [effect, hl.accountId, haccount]
    | compensated => cases hr; simp [effect, haccount]
    | misposted _ _ _ hl => cases hr; simp [effect, hl.accountId, haccount]

/-- What the live transactions add up to is what the ledger says, with the completed transactions
that are not posted yet and without the reversed ones that were posted. -/
theorem Consistent.netEffect_eq (hc : Consistent db) (accountId : String) :
    db.netEffect accountId =
      db.ledgerSum accountId + db.unpostedSum accountId - db.mispostedSum accountId := by
  rw [hc.ledgerSum_eq, Database.unpostedSum, Database.mispostedSum, sum_filter, sum_filter,
    Database.netEffect, List.map_congr_left fun t ht ↦ hc.effect_eq ht accountId]
  generalize db.transactions.rows = rows
  induction rows with
  | nil => rfl
  | cons t rows ih =>
    simp only [List.map_cons, List.sum_cons, ih]
    omega

/-- In every reachable state each account holds its opening balance and what its ledger entries add
up to, with its completed transactions that are not posted yet, and without its reversed
transactions that were posted too late. -/
theorem ledger_reconciles (h : Runs d (initial accounts now) s) {a : Account}
    (ha : a ∈ s.db.accounts.rows) :
    ∃ a₀ ∈ accounts.rows, a₀.id = a.id ∧
      a.balance = a₀.balance + s.db.ledgerSum a.id + s.db.unpostedSum a.id -
        s.db.mispostedSum a.id := by
  obtain ⟨a₀, ha₀, hbalance⟩ := balanced h a.id a (Table.find?_of_mem ha)
  refine ⟨a₀, Table.mem_of_find? ha₀, Table.key_of_find? ha₀, ?_⟩
  rw [hbalance, (consistent h).netEffect_eq]
  omega

/-- A debit that is posted after its reversal stands in the ledger, and not in the balance. -/
theorem ledger_reconciles_misposted : ∃ s,
    Sample.after (Sample.debit ++ Sample.reverse 1 1 ++ Sample.post 2 2) = some s ∧
      s.db.ledgerSum Sample.accountId = -10 ∧
      ∃ a ∈ s.db.accounts.rows, ∃ a₀ ∈ Sample.accounts.rows, a₀.id = a.id ∧
        a.balance = a₀.balance + s.db.ledgerSum a.id + s.db.unpostedSum a.id -
          s.db.mispostedSum a.id := by
  have hrun : (Sample.after (Sample.debit ++ Sample.reverse 1 1 ++ Sample.post 2 2)).map (fun s ↦
      (s.db.ledgerSum Sample.accountId, s.db.accounts.rows.length)) = some (-10, 1) := by
    decide +kernel
  obtain ⟨s, hs, hfacts⟩ := Option.map_eq_some_iff.mp hrun
  obtain ⟨hledger, hlength⟩ := Prod.mk.inj hfacts
  obtain ⟨a, ha⟩ := List.exists_mem_of_length_pos (hlength ▸ Nat.zero_lt_one)
  exact ⟨s, hs, hledger, a, ha, ledger_reconciles (Relational.runs_of_run hs) ha⟩

end Banking
