import Banking.Outbox.Safety

/-!
# The outbox loses nothing

In every run of any number of publishers, with failing sends and database calls, shutdowns and
crashes anywhere, every outbox row keeps what its writer put there, is published only after an
acknowledged send, and is otherwise due again soon, when the next claim takes it.
-/

namespace Banking.Outbox

open Js (Date)
open Relational (Table)

variable {clock : Nat → Date} {s s' : State}

/-- Every reachable state is safe. -/
theorem safe (h : Runs (.initial clock) s) : s.Safe :=
  Relational.Steps.invariant (P := State.Safe) (fun _ _ _ hstep hs ↦ (safe_step hstep hs).1) h
    (.initial clock)

/-- A run extends a reachable state. -/
theorem extends_runs (h : Runs (.initial clock) s) (hs : Runs s s') : s.Extends s' :=
  (Relational.Steps.invariant (P := fun t ↦ t.Safe ∧ s.Extends t)
    (fun _ _ _ hstep ht ↦
      ⟨(safe_step hstep ht.1).1, ht.2.trans (safe_step hstep ht.1).2⟩)
    hs ⟨safe h, .refl s⟩).2

/-- A claim with a limit for all claimable rows takes and returns every row that is due. -/
theorem claim_takes {input : ClaimPendingOutboxEventsInput} {chosen : List String} {id : String}
    {row : OutboxEvent} (hrow : s.rows.find? id = some row) (hlive : row.status ≠ .PUBLISHED)
    (hdue : row.nextAttemptAt ≤ input.now)
    (hlimit : (s.rows.rows.filter (claimable input.now)).length ≤ input.limit)
    (hs : s.executeStatement (.claim input) chosen = some s') :
    s'.rows.find? id = some (claimed input.leaseExpiresAt row) ∧
      claimed input.leaseExpiresAt row ∈ (Statement.claim input).taken chosen s.rows := by
  unfold State.executeStatement at hs
  split at hs
  · next hexecutable =>
    cases hs
    have hclaimable : claimable input.now row = true := by
      cases hstatus : row.status with
      | PENDING => simp [claimable, hstatus, hdue]
      | PROCESSING => simp [claimable, hstatus, hdue]
      | PUBLISHED => exact absurd hstatus hlive
    have hmem : id ∈ chosen := mem_chosen hexecutable hlimit hrow hclaimable
    have hw : (Statement.claim input).writes chosen row = true :=
      decide_eq_true (Table.key_of_find? hrow ▸ hmem)
    have hfind : ((Statement.claim input).rows chosen s.rows).find? id =
        some (claimed input.leaseExpiresAt row) := by
      rw [Statement.find?_rows, hrow, Option.map_some, if_pos hw, Statement.written]
    exact ⟨hfind, List.mem_filterMap.mpr ⟨id, hmem, hfind⟩⟩
  · cases hs

/-- What holds of the outbox in a state and from it on. -/
structure Lossless (s : State) : Prop where
  /-- Every row stays, with its identifier, topic, key, type and payload. -/
  kept : ∀ {s' id row}, Runs s s' → s.rows.find? id = some row →
    ∃ row', s'.rows.find? id = some row' ∧ row'.id = id ∧
      row'.toOutboxEventData = row.toOutboxEventData
  /-- A published row was sent in its serialized form and acknowledged. -/
  sent : ∀ {id row}, s.rows.find? id = some row → row.status = .PUBLISHED →
    ∃ d ∈ s.deliveries, d.acknowledged = true ∧ d.message = message row
  /-- A published row never changes again. -/
  final : ∀ {s' id row}, Runs s s' → s.rows.find? id = some row → row.status = .PUBLISHED →
    s'.rows.find? id = some row
  /-- Any other row is due at most a minute after the clock reading behind its last write. -/
  due : ∀ {id row}, s.rows.find? id = some row → row.status ≠ .PUBLISHED →
    (row.status = .PENDING ∨ row.status = .PROCESSING) ∧
      row.nextAttemptAt ≤ s.lastWrite id + 60000
  /-- The next claim at or after that time with a sufficient limit takes it. -/
  reclaimed : ∀ {s' id row input chosen}, s.rows.find? id = some row →
    row.status ≠ .PUBLISHED → row.nextAttemptAt ≤ input.now →
    (s.rows.rows.filter (claimable input.now)).length ≤ input.limit →
    s.executeStatement (.claim input) chosen = some s' →
    s'.rows.find? id = some (claimed input.leaseExpiresAt row) ∧
      claimed input.leaseExpiresAt row ∈ (Statement.claim input).taken chosen s.rows

/-- The outbox loses nothing. -/
theorem outbox_lossless (h : Runs (.initial clock) s) : Lossless s where
  kept := by
    intro s' id row hs hrow
    obtain ⟨row', hrow', hsame⟩ := (extends_runs h hs).row hrow
    exact ⟨row', hrow', Table.key_of_find? hrow', hsame.data.symm⟩
  sent := (safe h).acknowledged
  final := fun hs ↦ (extends_runs h hs).published
  due := by
    intro id row hrow hlive
    refine ⟨?_, (safe h).scheduled hrow hlive⟩
    cases hstatus : row.status with
    | PENDING => exact .inl rfl
    | PROCESSING => exact .inr rfl
    | PUBLISHED => exact absurd hstatus hlive
  reclaimed := claim_takes

/-! ### A run -/

namespace Sample

/-- An event of the sample account. -/
def data : OutboxEventData :=
  ⟨"TransactionCompleted", 1, "account-1", "txn-1", "banking.transaction", "account-1", .null⟩

/-- One publisher claims two events. The first send fails after delivery, and the second is
acknowledged; the process crashes before the mark is answered. Its successor publishes the first
event, and the mark of the crashed process is executed late. -/
def handover : List Action :=
  [.create data "event-1" 0, .create data "event-2" 0, .start 0, .proceed 0,
    .answer 0 ["event-1", "event-2"], .proceed 0, .sendFails 0 true "timeout", .answer 0 [],
    .proceed 0, .acknowledge 0, .crash 0 false, .start 1, .tick 1 20000, .proceed 1,
    .answer 1 ["event-1"], .proceed 1, .acknowledge 1, .answer 1 [], .late 0 []]

end Sample

/-- After the hand-over both events are published and nothing is lost. -/
theorem outbox_lossless_handover : ∃ s,
    Relational.execute step (.initial fun _ ↦ 0) Sample.handover = some s ∧
      (s.rows.find? "event-1").map OutboxEvent.status = some .PUBLISHED ∧
      (s.rows.find? "event-2").map OutboxEvent.status = some .PUBLISHED ∧ Lossless s := by
  have hrun : (Relational.execute step (.initial fun _ ↦ 0) Sample.handover).map (fun s ↦
      ((s.rows.find? "event-1").map OutboxEvent.status,
        (s.rows.find? "event-2").map OutboxEvent.status)) =
      some (some .PUBLISHED, some .PUBLISHED) := by
    decide +kernel
  obtain ⟨s, hs, hstatus⟩ := Option.map_eq_some_iff.mp hrun
  obtain ⟨hfirst, hsecond⟩ := Prod.mk.inj hstatus
  exact ⟨s, hs, hfirst, hsecond, outbox_lossless (Relational.steps_of_execute hs)⟩

end Banking.Outbox
