import Banking.Replay.Script
import Banking.System.Calls

/-!
# Rebuilt balances

A rebuild files the amount of every event under its account, so its balances are signed sums: they
do not depend on the order of the events, they add up, and the events of other accounts do not
matter.
-/

namespace Banking

open Relational (tally valuesAt)

variable {collation : Collation} {events : List ReplayEvent} {balances : Balances}

/-- The accepted payloads. -/
def payloads (events : List ReplayEvent) : List TransactionCompletedPayload :=
  events.filterMap fun event ↦ transactionCompletedPayloadSchema (some event.payload)

/-- What the amounts of one type add up to for an account. -/
def amountOfType (type : TransactionType) (accountId : String) (events : List ReplayEvent) : Int :=
  (((payloads events).filter (fun p ↦ p.accountId = accountId ∧ p.txnType = type)).map
    (fun p ↦ Js.bigInt p.amount)).sum

/-- The event is one that the route and the script keep for the account. -/
def ReplayEvent.concerns (accountId : String) (event : ReplayEvent) : Bool :=
  isAccountPayload accountId event.payload

/-- An accepted payload is filtered by the account that it was parsed with. -/
theorem isAccountPayload_of_accepted {payload : Json} {parsed : TransactionCompletedPayload}
    (h : transactionCompletedPayloadSchema (some payload) = some parsed) (accountId : String) :
    isAccountPayload accountId payload = (parsed.accountId == accountId) := by
  obtain ⟨fields, hfields, hparse⟩ := Zod.strictObject_eq_some h
  cases hfields
  simp only [Option.bind_eq_bind, Option.bind_eq_some_iff] at hparse
  obtain ⟨_, _, _, _, id, hid, _, _, _, _, _, _, _, _, _, _, hparsed⟩ := hparse
  cases hparsed
  have hlookup := Zod.string_eq_some.mp (Zod.refine_eq_some.mp hid).1
  simp only [isAccountPayload, hlookup]

private theorem movements_eq (events : List ReplayEvent) :
    events.filterMap ReplayEvent.movement =
      (payloads events).map fun payload ↦ (payload.accountId, payload.apply 0) :=
  List.map_filterMap.symm

private theorem sum_valuesAt (parsed : List TransactionCompletedPayload) (accountId : String) :
    (valuesAt (parsed.map fun p ↦ (p.accountId, p.apply 0)) accountId).sum =
      ((parsed.filter (fun p ↦ p.accountId = accountId ∧ p.txnType = .CREDIT)).map
        (fun p ↦ Js.bigInt p.amount)).sum -
      ((parsed.filter (fun p ↦ p.accountId = accountId ∧ p.txnType = .DEBIT)).map
        (fun p ↦ Js.bigInt p.amount)).sum := by
  induction parsed with
  | nil => rfl
  | cons p parsed ih =>
    rw [List.map_cons, Relational.valuesAt_cons]
    by_cases haccount : p.accountId = accountId
    · rw [if_pos haccount, List.sum_cons, ih, TransactionCompletedPayload.apply]
      cases htype : p.txnType
      · simp [haccount, htype]
        omega
      · simp [haccount, htype]
        omega
    · rw [if_neg haccount, ih]
      simp [haccount]

/-- A rebuilt balance is the sum of the credits less the sum of the debits, and only the accounts
of the events have one. -/
theorem balance_eq (h : rebuildBalances collation events = some balances) (accountId : String) :
    balances accountId =
      if accountId ∈ (payloads events).map TransactionCompletedPayload.accountId then
        some (amountOfType .CREDIT accountId events - amountOfType .DEBIT accountId events)
      else none := by
  obtain ⟨-, rfl⟩ := rebuildBalances_eq_some.mp h
  have hkeys : accountId ∈ (payloads events).map TransactionCompletedPayload.accountId ↔
      (tally (events.filterMap ReplayEvent.movement) accountId).isSome = true := by
    rw [Relational.isSome_tally, movements_eq, List.map_map]
    rfl
  have hsum := Relational.getD_tally (events.filterMap ReplayEvent.movement) accountId
  rw [movements_eq, sum_valuesAt, ← movements_eq] at hsum
  cases hbalance : tally (events.filterMap ReplayEvent.movement) accountId with
  | none =>
    rw [hbalance] at hkeys
    exact (if_neg (mt hkeys.mp Bool.false_ne_true)).symm
  | some n =>
    rw [hbalance] at hkeys hsum
    rw [if_pos (hkeys.mpr rfl)]
    exact congrArg some hsum

/-- A rebuild from the events of one account finds the balance that a rebuild from all finds. -/
theorem rebuildBalances_filter (h : rebuildBalances collation events = some balances)
    (accountId : String) :
    ∃ filtered, rebuildBalances collation (events.filter (·.concerns accountId)) = some filtered ∧
      filtered accountId = balances accountId := by
  obtain ⟨haccepted, rfl⟩ := rebuildBalances_eq_some.mp h
  refine ⟨_, rebuildBalances_eq_some.mpr
    ⟨fun event hevent ↦ haccepted event (List.mem_of_mem_filter hevent), rfl⟩, ?_⟩
  have hmovements : (events.filter (·.concerns accountId)).filterMap ReplayEvent.movement =
      (events.filterMap ReplayEvent.movement).filter (fun item ↦ item.1 = accountId) := by
    rw [List.filter_filterMap, List.filterMap_filter]
    refine List.filterMap_congr fun event hevent ↦ ?_
    obtain ⟨item, hitem⟩ := Option.isSome_iff_exists.mp (haccepted event hevent)
    obtain ⟨parsed, hparsed, rfl⟩ := Option.map_eq_some_iff.mp hitem
    rw [hitem, ReplayEvent.concerns, isAccountPayload_of_accepted hparsed]
    by_cases haccount : parsed.accountId = accountId <;> simp [haccount, Option.filter_some]
  rw [hmovements, Relational.tally_filter]

/-- The balances of two histories add up. -/
theorem rebuildBalances_append {events' : List ReplayEvent} {balances' : Balances}
    (h : rebuildBalances collation events = some balances)
    (h' : rebuildBalances collation events' = some balances') :
    rebuildBalances collation (events ++ events') =
      some fun accountId ↦ (balances accountId).merge (· + ·) (balances' accountId) := by
  obtain ⟨haccepted, rfl⟩ := rebuildBalances_eq_some.mp h
  obtain ⟨haccepted', rfl⟩ := rebuildBalances_eq_some.mp h'
  refine rebuildBalances_eq_some.mpr ⟨fun event hevent ↦ ?_, ?_⟩
  · exact (List.mem_append.mp hevent).elim (haccepted event) (haccepted' event)
  · funext accountId
    rw [List.filterMap_append, Relational.tally_append]

/-- A history in another order has the same balances. -/
theorem rebuildBalances_perm {events' : List ReplayEvent} (hperm : events'.Perm events)
    (h : rebuildBalances collation events = some balances) :
    rebuildBalances collation events' = some balances := by
  obtain ⟨haccepted, rfl⟩ := rebuildBalances_eq_some.mp h
  refine rebuildBalances_eq_some.mpr
    ⟨fun event hevent ↦ haccepted event (hperm.mem_iff.mp hevent), ?_⟩
  exact funext fun accountId ↦ (Relational.tally_perm (hperm.filterMap _) accountId).symm

/-- When the script can rebuild all balances, the route rebuilds the same balance for each account
from the account's own events. -/
theorem route_agrees {ties : String → String → Int} {db : Database} {auth : Auth}
    {account : Account} {report : ReplayReport}
    (haccount : db.accounts.find? account.id = some account)
    (hauth : auth.role = .ADMIN ∨ auth.userId = account.userId)
    (h : replayEvents ties collation db ⟨none, none⟩ = some report) :
    ∃ replay, replayAccount collation db auth account.id = some (.data replay) ∧
      replay.rebuiltBalance = (report.rebuiltBalances account.id).getD "0" := by
  obtain ⟨balances, hbalances, htrace⟩ := Option.bind_eq_some_iff.mp h
  obtain ⟨trace, -, hreport⟩ := Option.bind_eq_some_iff.mp htrace
  cases hreport
  obtain ⟨filtered, hfiltered, hsame⟩ := rebuildBalances_filter hbalances account.id
  have hperm : (((findReplayEvents ties db).map OutboxEvent.replay).filter
      (·.concerns account.id)).Perm ((db.accountEvents account.id).map OutboxEvent.replay) := by
    rw [List.filter_map]
    exact (accountEvents_perm ⟨ties, collation.localeCompare⟩ db account.id).map _
  have hroute := rebuildBalances_perm hperm.symm hfiltered
  have hshown : ((balances account.id).map toString).getD "0" =
      toString ((balances account.id).getD 0) := by
    cases balances account.id <;> rfl
  have haccepted : ∀ e ∈ db.accountEvents account.id,
      (transactionCompletedPayloadSchema (some e.payload)).isSome = true := fun e he ↦
    rebuildBalances_isSome.mp (Option.isSome_of_eq_some hroute) e.replay (List.mem_map_of_mem he)
  have hsum : ((db.accountEvents account.id).map
      (fun e ↦ replayedAmount account.id e.replay)).sum = (balances account.id).getD 0 := by
    rw [← hsame, rebuildBalances_getD account.id hroute, List.map_map, Function.comp_def]
  obtain ⟨replay, hreplay, htext⟩ :=
    (replayAccount_rebuilt haccount hauth _).mpr ⟨haccepted, hsum⟩
  exact ⟨replay, hreplay, htext.trans hshown.symm⟩

/-- A rebuild throws if and only if the schema rejects a payload. Otherwise exactly the accounts of
the payloads have a balance, which is the sum of the credits less that of the debits; the order of
the events does not matter, the balances of two histories add up, the events of an account give its
balance alone, and so the route and the script agree. -/
theorem rebuildBalances_signedSum (collation : Collation) (events : List ReplayEvent) :
    (rebuildBalances collation events = none ↔ ∃ event ∈ events,
        transactionCompletedPayloadSchema (some event.payload) = none) ∧
      (∀ balances, rebuildBalances collation events = some balances →
        (∀ accountId, balances accountId =
          if accountId ∈ (payloads events).map TransactionCompletedPayload.accountId then
            some (amountOfType .CREDIT accountId events - amountOfType .DEBIT accountId events)
          else none) ∧
        (∀ events' : List ReplayEvent, events'.Perm events →
          rebuildBalances collation events' = some balances) ∧
        (∀ events' balances', rebuildBalances collation events' = some balances' →
          rebuildBalances collation (events ++ events') =
            some fun accountId ↦ (balances accountId).merge (· + ·) (balances' accountId)) ∧
        ∀ accountId, ∃ filtered,
          rebuildBalances collation (events.filter (·.concerns accountId)) = some filtered ∧
            filtered accountId = balances accountId) ∧
      ∀ (ties : String → String → Int) (db : Database) (auth : Auth) (account : Account)
        (report : ReplayReport), db.accounts.find? account.id = some account →
        auth.role = .ADMIN ∨ auth.userId = account.userId →
        replayEvents ties collation db ⟨none, none⟩ = some report →
        ∃ replay, replayAccount collation db auth account.id = some (.data replay) ∧
          replay.rebuiltBalance = (report.rebuiltBalances account.id).getD "0" := by
  refine ⟨?_, fun balances h ↦ ⟨balance_eq h, fun _ hperm ↦ rebuildBalances_perm hperm h,
    fun _ _ h' ↦ rebuildBalances_append h h', rebuildBalances_filter h⟩,
    fun _ _ _ _ _ haccount hauth h ↦ route_agrees haccount hauth h⟩
  rw [← Option.isNone_iff_eq_none, ← Option.not_isSome, Bool.not_eq_true', ← Bool.not_eq_true,
    rebuildBalances_isSome]
  simp only [not_forall, exists_prop, Bool.not_eq_true, Option.isSome_eq_false_iff,
    Option.isNone_iff_eq_none]

/-- The sample debit twice is rebuilt as minus twenty, and the script and the route both rebuild
minus ten from the sample debit. -/
theorem rebuildBalances_signedSum_debit : ∃ s, Sample.after Sample.debit = some s ∧
    (∃ events balances, rebuildBalances ⟨fun _ _ ↦ 0, fun _ _ ↦ 0⟩ events = some balances ∧
      balances Sample.accountId = some (-10) ∧
      ∃ twice, rebuildBalances ⟨fun _ _ ↦ 0, fun _ _ ↦ 0⟩ (events ++ events) = some twice ∧
        twice Sample.accountId = some (-20)) ∧
    ∃ report, replayEvents (fun _ _ ↦ 0) ⟨fun _ _ ↦ 0, fun _ _ ↦ 0⟩ s.db ⟨none, none⟩ =
        some report ∧ report.rebuiltBalances Sample.accountId = some "-10" ∧
      ∃ replay, replayAccount ⟨fun _ _ ↦ 0, fun _ _ ↦ 0⟩ s.db ⟨"admin-1", .ADMIN⟩
        Sample.accountId = some (.data replay) ∧ replay.rebuiltBalance = "-10" := by
  have hrun : (Sample.after Sample.debit).map (fun s ↦
      ((s.db.accounts.find? Sample.accountId).isSome, (rebuildBalances
        ⟨fun _ _ ↦ 0, fun _ _ ↦ 0⟩ ((findReplayEvents (fun _ _ ↦ 0) s.db).map
          OutboxEvent.replay)).bind (fun balances ↦ balances Sample.accountId),
        (replayEvents (fun _ _ ↦ 0) ⟨fun _ _ ↦ 0, fun _ _ ↦ 0⟩ s.db ⟨none, none⟩).bind
          (fun report ↦ report.rebuiltBalances Sample.accountId))) =
      some (true, some (-10), some "-10") := by
    decide +kernel
  obtain ⟨s, hs, hall⟩ := Option.map_eq_some_iff.mp hrun
  obtain ⟨haccount, hboth⟩ := Prod.mk.inj hall
  obtain ⟨hrebuilt, hreport⟩ := Prod.mk.inj hboth
  obtain ⟨account, hfind⟩ := Option.isSome_iff_exists.mp haccount
  obtain ⟨balances, hbalances, hbalance⟩ := Option.bind_eq_some_iff.mp hrebuilt
  obtain ⟨report, hscript, hshown⟩ := Option.bind_eq_some_iff.mp hreport
  obtain ⟨-, hlists, hroutes⟩ := rebuildBalances_signedSum ⟨fun _ _ ↦ 0, fun _ _ ↦ 0⟩
    ((findReplayEvents (fun _ _ ↦ 0) s.db).map OutboxEvent.replay)
  have htwice := (hlists balances hbalances).2.2.1 _ balances hbalances
  have hid : account.id = Sample.accountId := Relational.Table.key_of_find? hfind
  rw [← hid] at hfind hshown hbalance ⊢
  obtain ⟨replay, hreplay, htext⟩ := hroutes (fun _ _ ↦ 0) s.db ⟨"admin-1", .ADMIN⟩ account report
    hfind (.inl rfl) hscript
  rw [hshown] at htext
  exact ⟨s, hs, ⟨_, balances, hbalances, hbalance, _, htwice, by simp [hbalance]⟩,
    report, hscript, hshown, replay, hreplay, htext⟩

end Banking
