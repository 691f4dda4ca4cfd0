import Banking.Refinement.SequentialCreate

/-!
# Requests for different users commute

A request sees the account it names, the accounts and transactions of the account's owner, and the
row under its own `transactionId`. A request for the account of another user changes none of these,
so two such requests give the same answers and leave the same rows in either order.
-/

namespace Banking

open Js (Date)
open Relational (Env Table Tx)

variable {d : Deployment} {input : CreateTransactionInput} {auth : Auth} {request : Request}
variable {env : Nat → Env Supply} {db db' : Database}

/-! ### What a request sees -/

/-- The accounts and the transactions of a user are the same. -/
structure SameOwn (userId : String) (db db' : Database) : Prop where
  accounts : ∀ id a, a.userId = userId →
    (db.accounts.find? id = some a ↔ db'.accounts.find? id = some a)
  transactions : ∀ t, db.owns userId t → (t ∈ db.transactions.rows ↔ t ∈ db'.transactions.rows)

/-- The named account, the data of its owner and the row under the request's own `transactionId`
are the same. -/
structure SameView (input : CreateTransactionInput) (db db' : Database) : Prop where
  account : db'.accounts.find? input.accountId = db.accounts.find? input.accountId
  own : ∀ a, db.accounts.find? input.accountId = some a → SameOwn a.userId db db'
  existing : db'.transactions.find? input.transactionId =
    db.transactions.find? input.transactionId

/-- A database looks like itself. -/
theorem SameView.refl (input : CreateTransactionInput) (db : Database) : SameView input db db :=
  ⟨rfl, fun _ _ ↦ ⟨fun _ _ _ ↦ Iff.rfl, fun _ _ ↦ Iff.rfl⟩, rfl⟩

/-- The owner of a transaction is the same. -/
theorem SameOwn.owns {userId : String} (h : SameOwn userId db db') (t : Transaction) :
    db'.owns userId t = db.owns userId t := by
  have key : db'.owns userId t = true ↔ db.owns userId t = true := by
    simp only [Database.owns, Option.any_eq_true, decide_eq_true_eq]
    constructor
    · rintro ⟨a, ha, hu⟩
      exact ⟨a, (h.accounts _ a hu).mpr ha, hu⟩
    · rintro ⟨a, ha, hu⟩
      exact ⟨a, (h.accounts _ a hu).mp ha, hu⟩
  exact Bool.eq_iff_iff.mpr key

/-- The recent transactions are the same up to their order. -/
theorem SameOwn.recent {userId : String} (h : SameOwn userId db db') (since : Date) :
    (db'.recent userId since).Perm (db.recent userId since) := by
  refine (List.perm_ext_iff_of_nodup ?_ ?_).mpr fun t ↦ ?_
  · exact (List.Nodup.of_map _ db'.transactions.unique).filter _
  · exact (List.Nodup.of_map _ db.transactions.unique).filter _
  · simp only [Database.recent, List.mem_filter, Bool.and_eq_true, h.owns]
    constructor
    · rintro ⟨hmem, howns, hsince⟩
      exact ⟨(h.transactions t howns).mpr hmem, howns, hsince⟩
    · rintro ⟨hmem, howns, hsince⟩
      exact ⟨(h.transactions t howns).mp hmem, howns, hsince⟩

/-- So are the fraud aggregates. -/
theorem SameOwn.debitSum {userId : String} (h : SameOwn userId db db') (since : Date) :
    Sql.debitSum db' userId since = Sql.debitSum db userId since :=
  (((h.recent since).filter _).map _).sum_eq

/-- A request decides by what it sees. -/
theorem decision_congr (h : SameView input db db') (countFrom amtFrom : Date) :
    decision d input auth countFrom amtFrom db' = decision d input auth countFrom amtFrom db := by
  have hlive : Sql.liveAccount db' input.accountId = Sql.liveAccount db input.accountId := by
    rw [Sql.liveAccount, h.account, Sql.liveAccount]
  simp only [decision, hlive, h.existing]
  cases ha : Sql.liveAccount db input.accountId with
  | none => rfl
  | some account =>
    have hown := h.own account (Sql.liveAccount_eq_some.mp ha).1
    simp only [(hown.recent countFrom).length_eq, hown.debitSum amtFrom]

/-- The same for a request with or without a caller, at the same times. -/
theorem decisionOf_congr {env' : Nat → Env Supply} (h : SameView input db db')
    (hclock : ∀ n, (env' n).now = (env n).now) :
    decisionOf d input request env' db' = decisionOf d input request env db := by
  unfold decisionOf
  cases request.auth with
  | none => rfl
  | some auth =>
    simp only [hclock]
    exact decision_congr h _ _

/-! ### What a request changes -/

/-- What a request inserts into a database. -/
structure Inserts (input : CreateTransactionInput) (env : Nat → Env Supply) (db : Database)
    (i : Insertion) : Prop where
  transactionId : i.row.transactionId = input.transactionId
  accountId : i.row.accountId = input.accountId
  rowId : i.row.id = (env 8).supply.id
  eventId : i.event.id = (env 10).supply.id
  found : ∃ account, db.accounts.find? input.accountId = some account
  fresh : db.transactions.find? input.transactionId = none

/-- A decision inserts the request's row into the request's account. -/
theorem inserts_of_decision {decided : Decision} (h : decisionOf d input request env db = decided)
    {ipAddress : Option String} {env' : Nat → Env Supply} {i : Insertion}
    (hi : decided.insertion input ipAddress env' = some i) : Inserts input env' db i := by
  obtain ⟨_, _, rfl⟩ | ⟨t, -, rfl⟩ | ⟨account, haccount, hfresh, ⟨reason, rfl⟩ | rfl⟩ :=
    decisionOf_cases h
  · cases hi
  · cases hi
  · cases hi
    exact ⟨rfl, rfl, rfl, rfl, ⟨account, haccount⟩, hfresh⟩
  · cases hi
    exact ⟨rfl, rfl, rfl, rfl, ⟨account, haccount⟩, hfresh⟩

/-- An insertion changes no account but its own. -/
private theorem find?_apply (i : Insertion) (db : Database) {id : String}
    (hne : id ≠ i.row.accountId) : (i.apply db).accounts.find? id = db.accounts.find? id := by
  unfold Insertion.apply
  cases i.balance with
  | none => rfl
  | some balance =>
    simp only [Option.elim_some, Database.accounts_setBalance]
    rw [Table.find?_modify, if_neg hne]

/-- An insertion keeps the owner of every account. -/
private theorem find?_apply_of_some (i : Insertion) {id : String} {a : Account}
    (ha : (i.apply db).accounts.find? id = some a) :
    ∃ a', db.accounts.find? id = some a' ∧ a'.userId = a.userId := by
  unfold Insertion.apply at ha
  cases hb : i.balance with
  | none =>
    simp only [hb, Option.elim_none] at ha
    exact ⟨a, ha, rfl⟩
  | some balance =>
    simp only [hb, Option.elim_some, Database.accounts_setBalance, Table.find?_modify] at ha
    split at ha
    · next he =>
      obtain ⟨a', ha', rfl⟩ := Option.map_eq_some_iff.mp ha
      exact ⟨a', he ▸ ha', rfl⟩
    · exact ⟨a, ha, rfl⟩

/-- The requests name accounts of different users, as far as the accounts exist. -/
def DifferentUsers (db : Database) (input input' : CreateTransactionInput) : Prop :=
  ∀ a a', db.accounts.find? input.accountId = some a →
    db.accounts.find? input'.accountId = some a' → a.userId ≠ a'.userId

/-- What a request for another user inserts, a request does not see. -/
theorem Inserts.sameView {input' : CreateTransactionInput} {i : Insertion}
    (hi : Inserts input env db i) (hne : input.transactionId ≠ input'.transactionId)
    (husers : DifferentUsers db input input') : SameView input' db (i.apply db) := by
  obtain ⟨account, haccount⟩ := hi.found
  have hother : ∀ id a, db.accounts.find? id = some a → a.userId ≠ account.userId →
      id ≠ i.row.accountId := by
    rintro id a ha hu rfl
    rw [hi.accountId, haccount] at ha
    cases ha
    exact hu rfl
  constructor
  case account =>
    cases ha' : db.accounts.find? input'.accountId with
    | some a' => rw [find?_apply i db (hother _ a' ha' (husers _ _ haccount ha').symm), ha']
    | none =>
      cases hx : (i.apply db).accounts.find? input'.accountId with
      | none => rfl
      | some x =>
        obtain ⟨x', hx', -⟩ := find?_apply_of_some i hx
        rw [ha'] at hx'
        cases hx'
  case own =>
    intro a' ha'
    have hu := husers _ _ haccount ha'
    refine ⟨fun id a ha ↦ ⟨fun hfound ↦ ?_, fun hfound ↦ ?_⟩, fun t howns ↦ ?_⟩
    · rw [find?_apply i db (hother id a hfound (ha ▸ hu.symm)), hfound]
    · obtain ⟨x, hx, hxu⟩ := find?_apply_of_some i hfound
      rw [find?_apply i db (hother id x hx (by rw [hxu, ha]; exact hu.symm))] at hfound
      exact hfound
    · -- the new row belongs to the account of another user
      have hrow : t ≠ i.row := by
        rintro rfl
        simp only [Database.owns, hi.accountId, haccount, Option.any_some,
          decide_eq_true_eq] at howns
        exact hu howns
      have hrows : (i.apply db).transactions.rows = db.transactions.rows ++ [i.row] :=
        Table.rows_insert (by rw [hi.transactionId]; exact hi.fresh)
      simp [hrows, hrow]
  case existing => exact Table.find?_insert_of_ne _ (by rw [hi.transactionId]; exact hne)

/-! ### Generated identifiers -/

section Rename

variable (σ τ : String → String)

/-- The row with another identifier. -/
def Transaction.rename (t : Transaction) : Transaction := { t with id := σ t.id }

/-- The row with another identifier. -/
def OutboxEvent.rename (e : OutboxEvent) : OutboxEvent := { e with id := τ e.id }

/-- The answer with another identifier. -/
def TransactionResult.rename : TransactionResult → TransactionResult
  | .success statusCode response => .success statusCode { response with id := σ response.id }
  | .failure statusCode message => .failure statusCode message

/-- The insertion with other identifiers. -/
def Insertion.rename (i : Insertion) : Insertion :=
  { i with
    row := i.row.rename σ
    event := i.event.rename τ }

/-- Renaming keeps the identifiers of a database. -/
structure Fixes (db : Database) : Prop where
  transactions : ∀ t ∈ db.transactions.rows, σ t.id = t.id
  outboxEvents : ∀ e ∈ db.outboxEvents.rows, τ e.id = e.id

/-- The databases hold the same rows once the identifiers of the first are renamed, whatever the
order of the rows. -/
structure SameUpTo (a b : Database) : Prop where
  accounts : b.accounts = a.accounts
  transactions : b.transactions.rows.Perm (a.transactions.rows.map (Transaction.rename σ))
  ledgerEntries : b.ledgerEntries = a.ledgerEntries
  outboxEvents : b.outboxEvents.rows.Perm (a.outboxEvents.rows.map (OutboxEvent.rename τ))
  processedEvents : b.processedEvents = a.processedEvents

end Rename

/-- Apply an insertion, if there is one. -/
def leave (o : Option Insertion) (db : Database) : Database := o.elim db fun i ↦ i.apply db

/-- The insertion goes into tables that have neither its row nor its event. -/
structure Insertion.New (i : Insertion) (db : Database) : Prop where
  row : db.transactions.find? i.row.transactionId = none
  event : db.outboxEvents.find? i.event.id = none

/-- The insertions have different rows, events and accounts. -/
structure Insertion.Apart (i j : Insertion) : Prop where
  row : i.row.transactionId ≠ j.row.transactionId
  event : i.event.id ≠ j.event.id
  account : i.row.accountId ≠ j.row.accountId

variable {σ τ : String → String}

private theorem rows_leave {o : Option Insertion} (h : ∀ i ∈ o, i.New db) :
    (leave o db).transactions.rows = db.transactions.rows ++ (o.map Insertion.row).toList ∧
      (leave o db).outboxEvents.rows =
        db.outboxEvents.rows ++ (o.map Insertion.event).toList := by
  cases o with
  | none => simp [leave]
  | some i => exact ⟨Table.rows_insert (h i rfl).row, Table.rows_insert (h i rfl).event⟩

private theorem new_leave {o o' : Option Insertion} (h' : ∀ j ∈ o', j.New db)
    (hapart : ∀ i ∈ o, ∀ j ∈ o', i.Apart j) : ∀ j ∈ o', j.New (leave o db) := by
  intro j hj
  cases o with
  | none => exact h' j hj
  | some i =>
    have hij := hapart i rfl j hj
    exact ⟨(Table.find?_insert_of_ne _ hij.row).trans (h' j hj).row,
      (Table.find?_insert_of_ne _ hij.event).trans (h' j hj).event⟩

private theorem accounts_leave {o o' : Option Insertion}
    (hapart : ∀ i ∈ o, ∀ j ∈ o', i.Apart j) :
    (leave o (leave o' db)).accounts = (leave o' (leave o db)).accounts := by
  cases o with
  | none => rfl
  | some i =>
    cases o' with
    | none => rfl
    | some j =>
      simp only [leave, Option.elim_some, Insertion.apply]
      cases i.balance with
      | none => cases j.balance <;> rfl
      | some balance =>
        cases j.balance with
        | none => rfl
        | some balance' =>
          exact Table.modify_comm db.accounts (hapart i rfl j rfl).account.symm
            (fun a ↦ { a with balance := balance' }) (fun a ↦ { a with balance }) (fun _ ↦ rfl)
            (fun _ ↦ rfl)

/-- Insertions that are apart commute up to the identifiers and the order of the rows. -/
private theorem leave_comm {o o' : Option Insertion} (hfix : Fixes σ τ db)
    (h : ∀ i ∈ o, i.New db ∧ (i.rename σ τ).New db)
    (h' : ∀ j ∈ o', j.New db ∧ (j.rename σ τ).New db)
    (hapart : ∀ i ∈ o, ∀ j ∈ o', i.Apart j ∧ (j.rename σ τ).Apart (i.rename σ τ)) :
    SameUpTo σ τ (leave o' (leave o db))
      (leave (o.map (Insertion.rename σ τ)) (leave (o'.map (Insertion.rename σ τ)) db)) := by
  have hnew₂ := new_leave (fun j hj ↦ (h' j hj).1) fun i hi j hj ↦ (hapart i hi j hj).1
  have hren : ∀ (o : Option Insertion), (∀ i ∈ o, i.New db ∧ (i.rename σ τ).New db) →
      ∀ i ∈ o.map (Insertion.rename σ τ), i.New db := by
    intro o ho i hi
    obtain ⟨x, hx, rfl⟩ := Option.map_eq_some_iff.mp hi
    exact (ho x hx).2
  have hnew₁ : ∀ i ∈ o.map (Insertion.rename σ τ),
      i.New (leave (o'.map (Insertion.rename σ τ)) db) := by
    refine new_leave (hren o h) fun j hj i hi ↦ ?_
    obtain ⟨y, hy, rfl⟩ := Option.map_eq_some_iff.mp hj
    obtain ⟨x, hx, rfl⟩ := Option.map_eq_some_iff.mp hi
    exact (hapart x hx y hy).2
  have hfirst := rows_leave fun i hi ↦ (h i hi).1
  have hsecond := rows_leave hnew₂
  have hfirst' := rows_leave (hren o' h')
  have hsecond' := rows_leave hnew₁
  have hkeep : db.transactions.rows.map (Transaction.rename σ) = db.transactions.rows := by
    refine (List.map_congr_left fun t ht ↦ ?_).trans (List.map_id _)
    rw [Transaction.rename, hfix.transactions t ht]
    rfl
  have hkeep' : db.outboxEvents.rows.map (OutboxEvent.rename τ) = db.outboxEvents.rows := by
    refine (List.map_congr_left fun e he ↦ ?_).trans (List.map_id _)
    rw [OutboxEvent.rename, hfix.outboxEvents e he]
    rfl
  constructor
  case accounts =>
    refine Eq.trans ?_ (accounts_leave fun i hi j hj ↦ (hapart i hi j hj).1)
    cases o <;> cases o' <;> rfl
  case transactions =>
    rw [hsecond.1, hfirst.1, hsecond'.1, hfirst'.1, List.map_append, List.map_append, hkeep,
      List.append_assoc, List.append_assoc]
    refine List.Perm.append_left _ (List.perm_append_comm.trans ?_)
    cases o <;> cases o' <;> exact List.Perm.refl _
  case ledgerEntries => cases o <;> cases o' <;> rfl
  case outboxEvents =>
    rw [hsecond.2, hfirst.2, hsecond'.2, hfirst'.2, List.map_append, List.map_append, hkeep',
      List.append_assoc, List.append_assoc]
    refine List.Perm.append_left _ (List.perm_append_comm.trans ?_)
    cases o <;> cases o' <;> exact List.Perm.refl _
  case processedEvents => cases o <;> cases o' <;> rfl

/-! ### Two requests -/

/-- Run a request alone: its answer and the database it leaves. -/
abbrev handle (d : Deployment) (input : CreateTransactionInput) (request : Request)
    (env : Nat → Env Supply) (db : Database) : Option TransactionResult × Database :=
  (create d input request).perform env 0 id db

/-- A request that returns while only it executes has the answer, and leaves the database, that it
has alone. -/
theorem handle_of_run {s s' : SystemState} {i : Nat} {actions : List SystemAction}
    {call : Call} {born born' : Database} {program : Process Reply} {result : TransactionResult}
    (honly : Relational.OnlyExecutes i actions)
    (hbegins : begins d (.create input request) s.db = some program)
    (hi : s.session i = some ⟨.create input request, born, .running program id⟩)
    (h : Relational.run (begins d) s actions = some s')
    (hdone : s'.session i = some ⟨call, born', .done (.returned (.transaction result))⟩) :
    ∃ env, handle d input request env s.db = (some result, s'.db) := by
  have halone := Relational.alone_of_run honly hi h hdone
  have : Nonempty Supply := ⟨⟨"", []⟩⟩
  obtain ⟨env, henv⟩ := (Relational.alone_iff_perform (n := 0)).mp halone
  cases hbegins
  change (create d input request >>= fun result ↦
    (.pure (.transaction result) : Process Reply)).perform env 0 id s.db = _ at henv
  rw [Tx.perform_map] at henv
  simp only [Prod.mk.injEq, Option.map_eq_some_iff] at henv
  obtain ⟨⟨result', hresult, hsame⟩, hdb⟩ := henv
  cases hsame
  exact ⟨env, Prod.ext hresult hdb⟩

/-- The clock readings are the same. -/
def SameClock (env env' : Nat → Env Supply) : Prop := ∀ n, (env' n).now = (env n).now

/-- The identifiers generated for two requests are new and different. -/
structure GeneratesBoth (env env' : Nat → Env Supply) (db : Database) : Prop where
  first : Generates env db
  second : Generates env' db
  apart : ∀ m n, (env m).supply.id ≠ (env' n).supply.id

/-- The identifiers of the second request are new after the first as well. -/
private theorem generates_leave {env' : Nat → Env Supply} (hids : GeneratesBoth env env' db)
    {o : Option Insertion} (ho : ∀ i ∈ o, Inserts input env db i ∧ i.New db) :
    Generates env' (leave o db) := by
  obtain ⟨hrows, -⟩ := rows_leave fun i hi ↦ (ho i hi).2
  constructor
  case transaction =>
    intro n t ht
    rw [hrows, List.mem_append] at ht
    rcases ht with hold | hnew
    · exact hids.second.transaction n t hold
    · obtain ⟨i, hi, rfl⟩ := Option.map_eq_some_iff.mp (Option.mem_toList.mp hnew)
      rw [(ho i hi).1.rowId]
      exact hids.apart 8 n
  case outboxEvent =>
    intro n
    cases o with
    | none => exact hids.second.outboxEvent n
    | some i =>
      refine (Table.find?_insert_of_ne _ ?_).trans (hids.second.outboxEvent n)
      rw [(ho i rfl).1.eventId]
      exact hids.apart 10 n

/-- What a request inserts goes into tables that have neither the row nor the event. -/
private theorem Inserts.new (hids : Generates env db) {i : Insertion} (h : Inserts input env db i) :
    i.New db :=
  ⟨by rw [h.transactionId]; exact h.fresh, by rw [h.eventId]; exact hids.outboxEvent 10⟩

section Two

variable {input₁ input₂ : CreateTransactionInput} {env₁ env₂ : Nat → Env Supply}

/-- Each of two requests for different users answers and inserts as if it were the only one. -/
private theorem handle_two (d : Deployment) (request₁ request₂ : Request)
    (hne : input₁.transactionId ≠ input₂.transactionId)
    (husers : DifferentUsers db input₁ input₂) (hids : GeneratesBoth env₁ env₂ db) :
    let decided₁ := decisionOf d input₁ request₁ env₁ db
    let decided₂ := decisionOf d input₂ request₂ env₂ db
    let first := handle d input₁ request₁ env₁ db
    let second := handle d input₂ request₂ env₂ first.2
    first.1 = some (decided₁.result input₁ env₁) ∧
      second.1 = some (decided₂.result input₂ env₂) ∧
      second.2 = leave (decided₂.insertion input₂ request₂.ipAddress env₂)
        (leave (decided₁.insertion input₁ request₁.ipAddress env₁) db) := by
  intro decided₁ decided₂ first second
  have hfirst : first = (some (decided₁.result input₁ env₁),
      leave (decided₁.insertion input₁ request₁.ipAddress env₁) db) := by
    refine (perform_create hids.first).trans ?_
    rw [write_eq_insertion rfl]
    rfl
  have hinserts : ∀ i ∈ decided₁.insertion input₁ request₁.ipAddress env₁,
      Inserts input₁ env₁ db i ∧ i.New db := by
    intro i hi
    have h := inserts_of_decision rfl hi
    exact ⟨h, h.new hids.first⟩
  have hgenerates : Generates env₂ first.2 := hfirst ▸ generates_leave hids hinserts
  have hdecision : decisionOf d input₂ request₂ env₂ first.2 = decided₂ := by
    rw [hfirst]
    cases ho : decided₁.insertion input₁ request₁.ipAddress env₁ with
    | none => rfl
    | some i => exact decisionOf_congr ((hinserts i ho).1.sameView hne husers) fun _ ↦ rfl
  have hsecond : second = (some (decided₂.result input₂ env₂),
      leave (decided₂.insertion input₂ request₂.ipAddress env₂) first.2) := by
    refine (perform_create hgenerates).trans ?_
    rw [write_eq_insertion rfl, hdecision]
    rfl
  rw [hsecond, hfirst]
  exact ⟨rfl, rfl, rfl⟩

end Two

/-! ### Either order -/

/-- Two identifiers become two others. -/
def exchange (a a' b b' : String) (x : String) : String :=
  if x = a then a' else if x = b then b' else x

private theorem exchange_second {a a' b b' : String} (hne : a ≠ b) :
    exchange a a' b b' b = b' := by
  simp [exchange, Ne.symm hne]

private theorem exchange_other {a a' b b' x : String} (ha : x ≠ a) (hb : x ≠ b) :
    exchange a a' b b' x = x := by
  simp [exchange, ha, hb]

/-- At the same times a decision inserts the same but for the generated identifiers. -/
private theorem insertion_rename {env' : Nat → Env Supply} (hclock : SameClock env env')
    (hσ : σ (env 8).supply.id = (env' 8).supply.id)
    (hτ : τ (env 10).supply.id = (env' 10).supply.id) (ipAddress : Option String)
    (decided : Decision) :
    decided.insertion input ipAddress env' =
      (decided.insertion input ipAddress env).map (Insertion.rename σ τ) := by
  cases decided with
  | answer result => rfl
  | block reason =>
    simp only [Decision.insertion, Option.map_some, Insertion.rename, Transaction.rename,
      OutboxEvent.rename, OutboxEventData.row, insertedRow, newTransaction, blockedEvent, hσ, hτ,
      hclock 7, hclock 8, hclock 10]
  | settle account =>
    simp only [Decision.insertion, Option.map_some, Insertion.rename, Transaction.rename,
      OutboxEvent.rename, OutboxEventData.row, insertedRow, newTransaction, completedEvent, hσ, hτ,
      hclock 7, hclock 8, hclock 10]

/-- A request that answers without an insert shows no identifier but one of the database. -/
private theorem rename_answer (hfix : Fixes σ τ db) {result : TransactionResult}
    (h : decisionOf d input request env db = .answer result) : result.rename σ = result := by
  obtain ⟨statusCode, message, hfails⟩ | ⟨t, ht, hanswers⟩ |
    ⟨account, -, -, ⟨reason, hblocks⟩ | hsettles⟩ := decisionOf_cases h
  · cases hfails
    rfl
  · cases hanswers
    have hid : σ (toTransactionResponse t t.authorizedAt).id = t.id :=
      hfix.transactions t (Table.mem_of_find? ht)
    unfold answerExisting
    split
    · rfl
    · split
      · rfl
      · simp only [TransactionResult.rename, hid]
        rfl
  · cases hblocks
  · cases hsettles

/-- At the same times a decision answers the same but for the generated identifier. -/
private theorem result_rename {env' : Nat → Env Supply} (hfix : Fixes σ τ db)
    (hclock : SameClock env env') (hσ : σ (env 8).supply.id = (env' 8).supply.id) :
    (decisionOf d input request env db).result input env' =
      ((decisionOf d input request env db).result input env).rename σ := by
  cases h : decisionOf d input request env db with
  | answer result => exact (rename_answer hfix h).symm
  | block reason => rfl
  | settle account =>
    simp only [Decision.result, TransactionResult.rename, toTransactionResponse, insertedRow,
      newTransaction, hσ, hclock 7, hclock 8]

/-- The same with the other identifiers. -/
private theorem Inserts.new_rename {env' : Nat → Env Supply} (hids : Generates env' db)
    (hτ : τ (env 10).supply.id = (env' 10).supply.id) {i : Insertion}
    (h : Inserts input env db i) : (i.rename σ τ).New db := by
  refine ⟨(congrArg _ h.transactionId).trans h.fresh, ?_⟩
  change db.outboxEvents.find? (τ i.event.id) = none
  rw [h.eventId, hτ]
  exact hids.outboxEvent 10

/-- What requests for different users insert is apart. -/
private theorem Inserts.apart {input' : CreateTransactionInput} {env' : Nat → Env Supply}
    (hne : input.transactionId ≠ input'.transactionId) (husers : DifferentUsers db input input')
    (hids : (env 10).supply.id ≠ (env' 10).supply.id) {i j : Insertion}
    (hi : Inserts input env db i) (hj : Inserts input' env' db j) : i.Apart j := by
  refine ⟨?_, ?_, ?_⟩
  · rw [hi.transactionId, hj.transactionId]
    exact hne
  · rw [hi.eventId, hj.eventId]
    exact hids
  · rw [hi.accountId, hj.accountId]
    intro he
    obtain ⟨a, ha⟩ := hi.found
    exact husers a a ha (he ▸ ha) rfl

/-- Requests for different users commute: whatever identifiers are generated in either order, each
answers the same and both leave the same rows, up to these identifiers. And a request answers by
the account that it names, the accounts and transactions of the account's owner, and the row under
its own `transactionId`. -/
theorem requests_commute (d : Deployment) :
    (∀ (db : Database) (input₁ input₂ : CreateTransactionInput) (request₁ request₂ : Request)
      (env₁ env₂ env₁' env₂' : Nat → Env Supply),
      input₁.transactionId ≠ input₂.transactionId → DifferentUsers db input₁ input₂ →
      SameClock env₁ env₁' → SameClock env₂ env₂' →
      GeneratesBoth env₁ env₂ db → GeneratesBoth env₂' env₁' db →
      let first := handle d input₁ request₁ env₁ db
      let second := handle d input₂ request₂ env₂ first.2
      let second' := handle d input₂ request₂ env₂' db
      let first' := handle d input₁ request₁ env₁' second'.2
      ∃ σ τ, Fixes σ τ db ∧ first'.1 = first.1.map (TransactionResult.rename σ) ∧
        second'.1 = second.1.map (TransactionResult.rename σ) ∧ SameUpTo σ τ second.2 first'.2) ∧
    ∀ (db db' : Database) (input : CreateTransactionInput) (request : Request)
      (env : Nat → Env Supply), SameView input db db' → Generates env db → Generates env db' →
      (handle d input request env db').1 = (handle d input request env db).1 := by
  constructor
  · intro db input₁ input₂ request₁ request₂ env₁ env₂ env₁' env₂' hne husers hclock₁ hclock₂
      hids hids' first second second' first'
    obtain ⟨hfirst, hsecond, hleft⟩ := handle_two d request₁ request₂ hne husers hids
    obtain ⟨hsecond', hfirst', hleft'⟩ := handle_two d request₂ request₁ hne.symm
      (fun a a' ha ha' he ↦ husers a' a ha' ha he.symm) hids'
    rw [decisionOf_congr (SameView.refl input₁ db) hclock₁] at hfirst' hleft'
    rw [decisionOf_congr (SameView.refl input₂ db) hclock₂] at hsecond' hleft'
    let σ := exchange (env₁ 8).supply.id (env₁' 8).supply.id (env₂ 8).supply.id (env₂' 8).supply.id
    let τ := exchange (env₁ 10).supply.id (env₁' 10).supply.id (env₂ 10).supply.id
      (env₂' 10).supply.id
    have hσ₁ : σ (env₁ 8).supply.id = (env₁' 8).supply.id := if_pos rfl
    have hτ₁ : τ (env₁ 10).supply.id = (env₁' 10).supply.id := if_pos rfl
    have hσ₂ : σ (env₂ 8).supply.id = (env₂' 8).supply.id := exchange_second (hids.apart 8 8)
    have hτ₂ : τ (env₂ 10).supply.id = (env₂' 10).supply.id := exchange_second (hids.apart 10 10)
    have hfix : Fixes σ τ db := by
      refine ⟨fun t ht ↦ exchange_other (hids.first.transaction 8 t ht)
        (hids.second.transaction 8 t ht), fun e he ↦ exchange_other ?_ ?_⟩
      · exact Table.find?_eq_none.mp (hids.first.outboxEvent 10) e he
      · exact Table.find?_eq_none.mp (hids.second.outboxEvent 10) e he
    refine ⟨σ, τ, hfix, ?_, ?_, ?_⟩
    · rw [hfirst, hfirst', Option.map_some, result_rename hfix hclock₁ hσ₁]
    · rw [hsecond, hsecond', Option.map_some, result_rename hfix hclock₂ hσ₂]
    · rw [hleft, hleft', insertion_rename hclock₁ hσ₁ hτ₁, insertion_rename hclock₂ hσ₂ hτ₂]
      have hinserts₁ : ∀ i ∈ (decisionOf d input₁ request₁ env₁ db).insertion input₁
          request₁.ipAddress env₁, Inserts input₁ env₁ db i := fun i hi ↦ inserts_of_decision rfl hi
      have hinserts₂ : ∀ j ∈ (decisionOf d input₂ request₂ env₂ db).insertion input₂
          request₂.ipAddress env₂, Inserts input₂ env₂ db j := fun j hj ↦ inserts_of_decision rfl hj
      refine leave_comm hfix (fun i hi ↦ ?_) (fun j hj ↦ ?_) fun i hi j hj ↦ ?_
      · exact ⟨(hinserts₁ i hi).new hids.first, (hinserts₁ i hi).new_rename hids'.second hτ₁⟩
      · exact ⟨(hinserts₂ j hj).new hids.second, (hinserts₂ j hj).new_rename hids'.first hτ₂⟩
      · have hapart := (hinserts₁ i hi).apart hne husers (hids.apart 10 10) (hinserts₂ j hj)
        refine ⟨hapart, hapart.row.symm, ?_, hapart.account.symm⟩
        change τ j.event.id ≠ τ i.event.id
        rw [(hinserts₂ j hj).eventId, (hinserts₁ i hi).eventId, hτ₁, hτ₂]
        exact hids'.apart 10 10
  · intro db db' input request env hview hids hids'
    have hdecision : decisionOf d input request env db' = decisionOf d input request env db :=
      decisionOf_congr hview fun _ ↦ rfl
    simp only [handle, perform_create hids, perform_create hids', hdecision]

namespace Sample

/-- The identifier of another user's account. -/
def otherAccountId : String := "6ba7b810-9dad-41d1-80b4-00c04fd430c8"

/-- The accounts of two users. -/
def twoUsers : Database := Database.opening
  ⟨[⟨accountId, "user-1", 100, .ACTIVE, none, 0, none⟩,
    ⟨otherAccountId, "user-2", 50, .ACTIVE, none, 0, none⟩], by decide⟩

/-- A debit of twenty minor units from the other account. -/
def otherInput : CreateTransactionInput where
  transactionId := "txn-9"
  accountId := otherAccountId
  type := .DEBIT
  amountMinor := 20
  deviceFingerprint := "device-2"
  transactionId_trimmed := by decide
  transactionId_length := by decide
  accountId_uuid := by decide
  amountMinor_pos := by decide
  deviceFingerprint_trimmed := by decide
  deviceFingerprint_length := by decide

/-- The request of the other account's owner. -/
def otherRequest : Request := ⟨some ⟨"user-2", .CUSTOMER⟩, none, none⟩

/-- The `k`-th identifier for every row, at a fixed time. -/
def choices (k : Nat) : Nat → Env Supply := fun _ ↦ ⟨1000, ⟨uuid k, []⟩⟩

private theorem generatesBoth {k l : Nat} (h : uuid k ≠ uuid l) :
    GeneratesBoth (choices k) (choices l) twoUsers where
  first := ⟨by simp [twoUsers, Database.opening], fun _ ↦ rfl⟩
  second := ⟨by simp [twoUsers, Database.opening], fun _ ↦ rfl⟩
  apart := fun _ _ ↦ h

/-- The debits of two users succeed in either order, and the first does not depend on the balance
of the other account. -/
theorem requests_commute_debits :
    (let first := handle deployment Sample.input Sample.request (choices 0) twoUsers
      let second := handle deployment otherInput otherRequest (choices 1) first.2
      let second' := handle deployment otherInput otherRequest (choices 2) twoUsers
      let first' := handle deployment Sample.input Sample.request (choices 3) second'.2
      first.1.map TransactionResult.statusCode = some 201 ∧
        second.1.map TransactionResult.statusCode = some 201 ∧
        ∃ σ τ, Fixes σ τ twoUsers ∧ first'.1 = first.1.map (TransactionResult.rename σ) ∧
          second'.1 = second.1.map (TransactionResult.rename σ) ∧
          SameUpTo σ τ second.2 first'.2) ∧
    (handle deployment Sample.input Sample.request (choices 0)
        (twoUsers.setBalance otherAccountId 0)).1 =
      (handle deployment Sample.input Sample.request (choices 0) twoUsers).1 := by
  refine ⟨⟨by decide, by decide, ?_⟩, ?_⟩
  · refine (requests_commute deployment).1 twoUsers Sample.input otherInput Sample.request
      otherRequest _ _ _ _
      (by decide) ?_ (fun _ ↦ rfl) (fun _ ↦ rfl) (generatesBoth (by decide))
      (generatesBoth (by decide))
    rintro a a' ha ha'
    cases ha
    cases ha'
    decide
  · refine (requests_commute deployment).2 twoUsers _ Sample.input Sample.request (choices 0) ?_
      (generatesBoth (l := 1) (by decide)).first ⟨by simp [twoUsers, Database.opening], fun _ ↦ rfl⟩
    refine ⟨rfl, fun a ha ↦ ?_, rfl⟩
    cases ha
    refine ⟨fun id a hu ↦ ?_, fun t _ ↦ Iff.rfl⟩
    rw [Database.accounts_setBalance, Table.find?_modify]
    split
    · next he =>
      subst he
      constructor
      · intro h
        cases h
        exact absurd hu (by decide)
      · intro h
        cases h
        exact absurd hu (by decide)
    · exact Iff.rfl

end Sample

end Banking
