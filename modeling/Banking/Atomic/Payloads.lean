import Banking.Atomic.Journal

/-!
# The numbers in payloads

The texts of amounts and balances in an event are written from the numbers that its commit leaves
in the tables, and these are not negative, so `BigInt` reads them back.
-/

namespace Banking

open Relational (Table)

/-! ### Numbers -/

/-- The number that a payload field writes in digits. -/
def payloadNumber (key : String) (payload : Json) : Option Int :=
  match payloadField key payload with
  | some (.str s) => if Js.isDigits s then some (Js.bigInt s) else none
  | _ => none

/-- A field that renders a number that is not negative writes it. -/
theorem payloadNumber_toString {key : String} {payload : Json} {n : Int} (hn : 0 ≤ n)
    (h : payloadField key payload = some (.str (toString n))) :
    payloadNumber key payload = some n := by
  rw [payloadNumber, h]
  dsimp only
  rw [if_pos (Js.isDigits_toString hn), Js.bigInt_toString hn]

/-- The payload of an event writes the numbers that its commit leaves in the database. -/
inductive Holds (db : Database) (e : OutboxEvent) : Prop
  /-- The balance is that of the account. -/
  | moved {t a}
      (htype : e.eventType = "TransactionCompleted" ∨ e.eventType = "TransactionCompensated")
      (ht : db.transactions.find? e.transactionId = some t)
      (ha : db.accounts.find? t.accountId = some a)
      (hamount : payloadNumber "amount" e.payload = some t.amount)
      (hbalance : payloadNumber "balanceAfter" e.payload = some a.balance)
  /-- No balance was moved. -/
  | blocked {t} (htype : e.eventType = "TransactionBlocked")
      (ht : db.transactions.find? e.transactionId = some t)
      (hamount : payloadNumber "amount" e.payload = some t.amount)
      (hbalance : payloadNumber "balanceAfter" e.payload = none)
  /-- The numbers are those of the ledger entry. -/
  | posted {l} (htype : e.eventType = "LedgerUpdated" ∨ e.eventType = "TransactionFinalized")
      (hl : db.ledgerEntries.find? e.transactionId = some l)
      (hamount : payloadNumber "amount" e.payload = some l.amount)
      (hbalance : payloadNumber "balanceAfter" e.payload = some l.balanceAfter)

/-! ### Balances of completed events -/

/-- No completed event left a negative balance. -/
def Nonneg (db : Database) : Prop :=
  ∀ {id e t balance}, db.outboxEvents.find? id = some e → IsCompletedEvent t balance e →
    0 ≤ balance

variable {d : Deployment} {call : Call} {own : Lock → Prop} {db db' : Database}

/-- A balance that is written is the balance of the account. -/
private theorem find?_setBalance {id k : String} {account : Account}
    (h : db.accounts.find? id = some account) (balance : Int) (hk : k = id) :
    (db.setBalance id balance).accounts.find? k = some { account with balance } := by
  rw [hk, Database.accounts_setBalance, Table.find?_modify, if_pos rfl, h, Option.map_some]

/-- A request that moves a solvent account's balance leaves a balance that is not negative. -/
theorem Cleared.newBalance_nonneg {input : CreateTransactionInput} {request : Request}
    {account : Account} {row : Transaction} (h : Cleared d input request own db account row)
    (hs : Solvent db) : 0 ≤ newBalance input.type account.balance row.amount := by
  obtain ⟨id, authorizedAt, createdAt, rfl⟩ := h.inserted
  have hbefore := hs _ _ h.found
  have hpos := input.amountMinor_pos
  change 0 ≤ newBalance input.type account.balance input.amountMinor
  unfold newBalance
  split
  · next htype =>
    have hfunded := h.funded htype
    omega
  · omega

/-- Every commit leaves completed events with balances that are not negative. -/
theorem Nonneg.step (h : Nonneg db) (hs : Solvent db) (hc : Commits d call own db db') :
    Nonneg db' := by
  intro id e t balance he hcompleted
  by_cases hold : db.outboxEvents.find? id = some e
  · exact h hold hcompleted
  · obtain ⟨input, request, account, row, -, hclear, hevent, -⟩ :=
      hc.completed_event hold he hcompleted.eventType
    rw [hcompleted.balance_unique hevent]
    exact hclear.newBalance_nonneg hs

/-! ### Records of posted transactions -/

variable {r : Record} {e : OutboxEvent}

/-- A ledger or finalized event repeats the entry, and the entry the completed event. -/
theorem Stage.of_posted (h : Stage r) (he : e ∈ r.events)
    (htype : e.eventType = "LedgerUpdated" ∨ e.eventType = "TransactionFinalized") :
    ∃ t balance l, r.transaction = some t ∧ r.entry = some l ∧ IsEntry t balance l ∧
      (∃ e₀ ∈ r.events, IsCompletedEvent t balance e₀) ∧
      (IsLedgerUpdatedEvent t balance e ∨ IsFinalizedEvent t balance e) := by
  cases h with
  | absent => simp at he
  | blocked _ hb =>
    obtain rfl := List.mem_singleton.mp he
    simp [hb.eventType] at htype
  | completed _ _ hc =>
    obtain rfl := List.mem_singleton.mp he
    simp [hc.eventType] at htype
  | compensated _ hc hc' =>
    rcases List.mem_pair.mp he with rfl | rfl
    · simp [hc.eventType] at htype
    · simp [hc'.eventType] at htype
  | posted _ _ hc hl hu =>
    refine ⟨_, _, _, rfl, rfl, hl, ⟨_, List.mem_cons_self, hc⟩, ?_⟩
    rcases List.mem_pair.mp he with rfl | rfl
    · simp [hc.eventType] at htype
    · exact .inl hu
  | finalized _ _ hc hl hu hf =>
    refine ⟨_, _, _, rfl, rfl, hl, ⟨_, List.mem_cons_self, hc⟩, ?_⟩
    simp only [List.mem_cons, List.not_mem_nil, or_false] at he
    rcases he with rfl | rfl | rfl
    · simp [hc.eventType] at htype
    · exact .inl hu
    · exact .inr hf
  | misposted _ hc hc' hl hu =>
    refine ⟨_, _, _, rfl, rfl, hl, ⟨_, List.mem_cons_self, hc⟩, ?_⟩
    simp only [List.mem_cons, List.not_mem_nil, or_false] at he
    rcases he with rfl | rfl | rfl
    · simp [hc.eventType] at htype
    · simp [hc'.eventType] at htype
    · exact .inl hu

/-- The balance of a ledger or finalized event is that of the entry, and is not negative. -/
theorem Consistent.of_posted (h : Consistent db) (hn : Nonneg db) {id : String}
    (he : db.outboxEvents.find? id = some e)
    (htype : e.eventType = "LedgerUpdated" ∨ e.eventType = "TransactionFinalized") :
    ∃ t balance l, db.transactions.find? e.transactionId = some t ∧
      db.ledgerEntries.find? e.transactionId = some l ∧ IsEntry t balance l ∧ 0 ≤ balance ∧
      (IsLedgerUpdatedEvent t balance e ∨ IsFinalizedEvent t balance e) := by
  obtain ⟨t, balance, l, ht, hl, hentry, ⟨e₀, he₀, hcompleted⟩, hevent⟩ :=
    (h.stage e.transactionId).of_posted (Database.mem_trail he) htype
  have hmem : e₀ ∈ db.outboxEvents.rows := (List.mem_filter.mp he₀).1
  exact ⟨t, balance, l, ht, hl, hentry, hn (Table.find?_of_mem hmem) hcompleted, hevent⟩

/-! ### Commits -/

/-- The event that a commit adds writes the numbers that the commit leaves. -/
theorem Commits.holds (h : Commits d call own db db') (hc : Consistent db) (hs : Solvent db)
    (hn : Nonneg db) {id : String} (hnew : db.outboxEvents.find? id ≠ some e)
    (he : db'.outboxEvents.find? id = some e) : Holds db' e := by
  have inserted : ∀ e' : OutboxEvent, db'.outboxEvents = db.outboxEvents.insert e' → e = e' := by
    intro e' hinsert
    rw [hinsert] at he
    exact (Table.eq_or_of_find?_insert he).resolve_right hnew
  cases h with
  | @complete input request _ _ account row event hclear hevent hunsent =>
    obtain rfl := inserted event rfl
    have hbalance := hclear.newBalance_nonneg hs
    have hfresh := hclear.fresh
    obtain ⟨htid, haccount, hamount⟩ : row.transactionId = input.transactionId ∧
        row.accountId = input.accountId ∧ 0 ≤ row.amount := by
      obtain ⟨id, authorizedAt, createdAt, rfl⟩ := hclear.inserted
      exact ⟨rfl, rfl, Int.le_of_lt input.amountMinor_pos⟩
    have hfound := find?_setBalance hclear.found
      (newBalance input.type account.balance row.amount) haccount
    refine .moved (t := row) (.inl (by rw [hevent]; rfl)) ?_ hfound
      (payloadNumber_toString hamount (by rw [hevent]; rfl))
      (payloadNumber_toString hbalance (by rw [hevent]; rfl))
    rw [hevent]
    change (db.transactions.insert row).find? input.transactionId = some row
    rw [← htid] at hfresh ⊢
    exact Table.find?_insert_self hfresh
  | @block input request _ _ account row event reason hadm hevent hunsent =>
    obtain rfl := inserted event rfl
    obtain ⟨id, authorizedAt, createdAt, rfl⟩ := hadm.inserted
    refine .blocked
      (t := { newTransaction input id authorizedAt createdAt with status := .BLOCKED })
      (by rw [hevent]; rfl) ?_
      (payloadNumber_toString (Int.le_of_lt input.amountMinor_pos) (by rw [hevent]; rfl))
      (by rw [hevent]; rfl)
    rw [hevent]
    exact Table.find?_insert_self
      (r := { newTransaction input id authorizedAt createdAt with status := .BLOCKED }) hadm.fresh
  | @post eventId _ _ t balance event entry event' _ hfind ht hcompleted hentry hunposted hposted =>
    obtain rfl := inserted event' rfl
    have hbalance : 0 ≤ balance := hn hfind hcompleted
    have hamount : 0 ≤ t.amount := Int.le_of_lt (hc.amount_pos ht)
    have hnumber : payloadNumber "amount" e.payload = some t.amount :=
      payloadNumber_toString hamount (by rw [hposted]; rfl)
    have hnumber' : payloadNumber "balanceAfter" e.payload = some balance :=
      payloadNumber_toString hbalance (by rw [hposted]; rfl)
    refine .posted (l := entry) (.inl hposted.eventType) ?_ (hentry.amount ▸ hnumber)
      (hentry.balanceAfter ▸ hnumber')
    rw [hposted.transactionId, ← hentry.transactionId]
    exact Table.find?_insert_self hunposted
  | @finalize eventId _ _ t balance event entry event' _ hfind ht hstatus hupdated hentry
      hfinalized =>
    obtain rfl := inserted event' rfl
    obtain ⟨t', balance', l, ht', hl, hentry', hbalance, hevent⟩ :=
      hc.of_posted hn hfind (.inl hupdated.eventType)
    rw [hupdated.transactionId] at ht' hl
    obtain rfl := Option.some.inj (ht.symm.trans ht')
    obtain rfl := Option.some.inj (hentry.symm.trans hl)
    have hupdated' : IsLedgerUpdatedEvent t balance' event := hevent.resolve_right fun hf ↦ by
      have htypes := hupdated.eventType.symm.trans hf.eventType
      simp at htypes
    have hfinal := hupdated.finalized_congr hupdated' hfinalized
    have hamount : 0 ≤ t.amount := Int.le_of_lt (hc.amount_pos ht)
    have hnumber : payloadNumber "amount" e.payload = some t.amount :=
      payloadNumber_toString hamount (by rw [hfinal]; rfl)
    have hnumber' : payloadNumber "balanceAfter" e.payload = some balance' :=
      payloadNumber_toString hbalance (by rw [hfinal]; rfl)
    refine .posted (l := entry) (.inr hfinal.eventType) ?_ (hentry'.amount ▸ hnumber)
      (hentry'.balanceAfter ▸ hnumber')
    rw [hfinal.transactionId]
    exact hentry
  | @compensate _ _ t account balance event ht hstatus hentry hfound hbalance hnonneg hevent =>
    obtain rfl := inserted event rfl
    have hamount : 0 ≤ t.amount := Int.le_of_lt (hc.amount_pos ht)
    refine .moved (t := { t with status := .BLOCKED }) (.inr (by rw [hevent]; rfl)) ?_
      (find?_setBalance hfound balance rfl)
      (payloadNumber_toString hamount (by rw [hevent]; rfl))
      (payloadNumber_toString hnonneg (by rw [hevent]; rfl))
    rw [hevent]
    change (db.setStatus t.transactionId .BLOCKED).transactions.find? t.transactionId = _
    rw [Database.transactions_setStatus, Table.find?_modify, if_pos rfl, ht, Option.map_some]
  | skip => exact absurd he hnew
  | pass => exact absurd he hnew

end Banking
