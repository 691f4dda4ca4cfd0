import Banking.Database.Tables

/-!
# The outbox repository

The three updates of `outbox-events.repository.ts`, each one statement on the outbox table.
-/

namespace Banking.Outbox

open Js (Date)
open Relational (Table)

/-- The outbox table with its primary key. -/
abbrev Rows := Table OutboxEvent.id

/-- `outbox-events.repository.ts:8–12`. -/
structure ClaimPendingOutboxEventsInput where
  now : Date
  leaseExpiresAt : Date
  limit : Nat
deriving DecidableEq

/-- `outbox-events.repository.ts:14–17`. -/
structure UpdateClaimedOutboxEventInput where
  id : String
  leaseExpiresAt : Date

/-- `outbox-events.repository.ts:19–23`. -/
structure RescheduleOutboxEventInput extends UpdateClaimedOutboxEventInput where
  lastError : String
  nextAttemptAt : Date

/-- The `where` of a claim; `outbox-events.repository.ts:42–53`. -/
def claimable (now : Date) (row : OutboxEvent) : Bool :=
  decide (row.status = .PENDING ∧ row.nextAttemptAt ≤ now) ||
    decide (row.status = .PROCESSING ∧ row.nextAttemptAt ≤ now)

/-- The `data` of a claim; `outbox-events.repository.ts:54–58`. -/
def claimed (leaseExpiresAt : Date) (row : OutboxEvent) : OutboxEvent :=
  { row with
    status := .PROCESSING
    attempts := row.attempts + 1
    nextAttemptAt := leaseExpiresAt }

/-- The identifiers that a claim takes: as many claimable rows as the limit allows, in the order
in which the database returns them. -/
def isChoice (input : ClaimPendingOutboxEventsInput) (rows : Rows) (chosen : List String) : Bool :=
  decide chosen.Nodup &&
    chosen.all (fun id ↦ (rows.find? id).any (claimable input.now)) &&
    chosen.length == min input.limit (rows.rows.filter (claimable input.now)).length

/-- `claimPendingOutboxEvents`; `outbox-events.repository.ts:38–61`. -/
def claimPendingOutboxEvents (input : ClaimPendingOutboxEventsInput) (chosen : List String)
    (rows : Rows) : Rows × List OutboxEvent :=
  let updated := rows.map
    (fun row ↦ if row.id ∈ chosen then claimed input.leaseExpiresAt row else row)
    (fun row ↦ by split <;> rfl)
  (updated, chosen.filterMap updated.find?)

/-- The `where` of the two updates of a claimed row; `:68–70` and `:87–89`. -/
def Held (input : UpdateClaimedOutboxEventInput) (row : OutboxEvent) : Prop :=
  row.id = input.id ∧ row.status = .PROCESSING ∧ row.nextAttemptAt = input.leaseExpiresAt

instance (input : UpdateClaimedOutboxEventInput) (row : OutboxEvent) :
    Decidable (Held input row) :=
  inferInstanceAs (Decidable (_ ∧ _))

/-- The `data` of a reschedule; `outbox-events.repository.ts:72–76`. -/
def rescheduled (input : RescheduleOutboxEventInput) (row : OutboxEvent) : OutboxEvent :=
  { row with
    status := .PENDING
    lastError := some input.lastError
    nextAttemptAt := input.nextAttemptAt }

/-- The `data` of a mark; `outbox-events.repository.ts:91–95`. -/
def published (publishedAt : Date) (row : OutboxEvent) : OutboxEvent :=
  { row with
    status := .PUBLISHED
    publishedAt := some publishedAt
    lastError := none }

/-- Update the row of the input while its lease is held, and say whether it was. -/
def updateHeld (input : UpdateClaimedOutboxEventInput) (data : OutboxEvent → OutboxEvent)
    (hdata : ∀ row, (data row).id = row.id) (rows : Rows) : Rows × Bool :=
  (rows.map (fun row ↦ if Held input row then data row else row)
      (fun row ↦ by split <;> simp [hdata]),
    (rows.find? input.id).any (fun row ↦ decide (Held input row)))

/-- `rescheduleOutboxEvent`; `outbox-events.repository.ts:63–80`. -/
def rescheduleOutboxEvent (input : RescheduleOutboxEventInput) : Rows → Rows × Bool :=
  updateHeld input.toUpdateClaimedOutboxEventInput (rescheduled input) (fun _ ↦ rfl)

/-- `markOutboxEventPublished`; `outbox-events.repository.ts:82–99`. -/
def markOutboxEventPublished (input : UpdateClaimedOutboxEventInput) (publishedAt : Date) :
    Rows → Rows × Bool :=
  updateHeld input (published publishedAt) (fun _ ↦ rfl)

/-! ### What the updates do to a row -/

variable {rows : Rows} {id : String} {row : OutboxEvent}

/-- A claim changes the chosen rows. -/
theorem find?_claim (input : ClaimPendingOutboxEventsInput) (chosen : List String) (rows : Rows)
    (id : String) :
    (claimPendingOutboxEvents input chosen rows).1.find? id =
      (rows.find? id).map (fun row ↦
        if row.id ∈ chosen then claimed input.leaseExpiresAt row else row) := by
  rw [claimPendingOutboxEvents, Table.find?_map]

/-- An update of a claimed row changes that row, and only while its lease is held. -/
theorem find?_updateHeld (input : UpdateClaimedOutboxEventInput)
    (data : OutboxEvent → OutboxEvent) (hdata : ∀ row, (data row).id = row.id) (rows : Rows)
    (id : String) :
    (updateHeld input data hdata rows).1.find? id =
      (rows.find? id).map (fun row ↦ if Held input row then data row else row) := by
  rw [updateHeld, Table.find?_map]

/-- An update of a claimed row whose lease is not held changes nothing and says so. -/
theorem updateHeld_of_not_held {input : UpdateClaimedOutboxEventInput}
    (h : ∀ {row}, rows.find? input.id = some row → ¬ Held input row)
    (data : OutboxEvent → OutboxEvent) (hdata : ∀ row, (data row).id = row.id) :
    updateHeld input data hdata rows = (rows, false) := by
  have hnone : ∀ row ∈ rows.rows, ¬ Held input row := by
    intro row hmem hheld
    exact h (hheld.1 ▸ Table.find?_of_mem hmem) hheld
  unfold updateHeld
  congr 1
  · apply Table.ext
    exact (List.map_congr_left fun row hmem ↦ if_neg (hnone row hmem)).trans (List.map_id' _)
  · rw [Option.any_eq_false_iff_get]
    intro hsome
    exact decide_eq_false (hnone _ (Table.mem_of_find? (Option.some_get hsome).symm))

/-- A claim with a limit for all claimable rows takes all of them. -/
theorem mem_chosen {input : ClaimPendingOutboxEventsInput} {chosen : List String}
    (h : isChoice input rows chosen = true)
    (hlimit : (rows.rows.filter (claimable input.now)).length ≤ input.limit)
    (hrow : rows.find? id = some row) (hclaimable : claimable input.now row = true) :
    id ∈ chosen := by
  simp only [isChoice, Bool.and_eq_true, decide_eq_true_eq, List.all_eq_true, beq_iff_eq,
    Nat.min_eq_right hlimit] at h
  obtain ⟨⟨hnodup, hall⟩, hlength⟩ := h
  -- the chosen identifiers are claimable ones, without repetition, and as many as these
  have hsub : chosen ⊆ (rows.rows.filter (claimable input.now)).map OutboxEvent.id := by
    intro k hk
    obtain ⟨r, hr, hc⟩ := Option.any_eq_true _ _ |>.mp (hall k hk)
    exact List.mem_map.mpr
      ⟨r, List.mem_filter.mpr ⟨Table.mem_of_find? hr, hc⟩, Table.key_of_find? hr⟩
  have hperm := (List.subperm_of_subset hnodup hsub).perm_of_length_le (by simp [hlength])
  refine hperm.mem_iff.mpr (List.mem_map.mpr ⟨row, ?_, Table.key_of_find? hrow⟩)
  exact List.mem_filter.mpr ⟨Table.mem_of_find? hrow, hclaimable⟩

end Banking.Outbox
