import Banking.Outbox.Safety

/-!
# Leases as fencing tokens

`nextAttemptAt` is the due time of a row and, while the row is `PROCESSING`, the lease of its last
claim. Whatever the row goes through, its `nextAttemptAt` stays above every lease ever issued for
it, less the length of a lease; so the next claim, which waits for that time, stores a greater
one.
-/

namespace Banking.Outbox

open Js (Date)
open Relational (Table)

/-! ### Issued leases -/

/-- The lease may have been issued: it is not above the current one, and the row is not due before
the lease was issued. -/
def State.Issued (s : State) (held : UpdateClaimedOutboxEventInput) : Prop :=
  ∃ row, s.rows.find? held.id = some row ∧
    held.leaseExpiresAt < row.nextAttemptAt + 30000 ∧
    (row.status = .PROCESSING → held.leaseExpiresAt ≤ row.nextAttemptAt)

/-- A call was computed from a clock that was read after the lease it presents was issued. -/
def Statement.Timed (s : State) : Statement → Prop
  | .claim input => input.leaseExpiresAt = input.now + 30000 ∧ ∃ p, input.now ≤ s.clock p
  | .mark input _ => s.Issued input
  | .reschedule input _ => s.Issued input.toUpdateClaimedOutboxEventInput ∧
      input.leaseExpiresAt < input.nextAttemptAt + 30000

/-- A publisher holds issued leases, and its clock was read before. -/
structure Phase.Timed (s : State) (p : Nat) (phase : Phase) : Prop where
  issued : ∀ e ∈ phase.events, s.Issued (lease e) ∧ e.nextAttemptAt ≤ s.clock p + 30000
  claiming : ∀ {input}, phase = .claiming input →
    input.leaseExpiresAt = input.now + 30000 ∧ input.now ≤ s.clock p
  rescheduling : ∀ {event rest error now}, phase = .rescheduling event rest error now →
    event.nextAttemptAt ≤ now + 30000

/-- All leases that are held or presented were issued. -/
structure State.Timed (s : State) : Prop where
  phases : ∀ {p x}, s.publisher p = some x → x.phase.Timed s p
  late : ∀ statement ∈ s.late, statement.Timed s

/-- Issued leases stay issued, and clocks do not go back. -/
structure State.Later (s s' : State) : Prop where
  issued : ∀ {held}, s.Issued held → s'.Issued held
  clock : ∀ p, s.clock p ≤ s'.clock p

namespace State.Later

variable {s s' s'' : State}

/-- Nothing need happen. -/
theorem refl (s : State) : s.Later s := ⟨id, fun _ ↦ Int.le_refl _⟩

/-- Later states come one after another. -/
theorem trans (h : s.Later s') (h' : s'.Later s'') : s.Later s'' :=
  ⟨fun hi ↦ h'.issued (h.issued hi), fun p ↦ Int.le_trans (h.clock p) (h'.clock p)⟩

/-- A state with the same table and clocks is later. -/
theorem of_eq (hrows : s'.rows = s.rows) (hclock : s'.clock = s.clock) : s.Later s' := by
  refine ⟨fun hi ↦ ?_, fun p ↦ Int.le_of_eq (congrFun hclock p).symm⟩
  unfold Issued at hi ⊢
  rw [hrows]
  exact hi

end State.Later

section

variable {s s' : State} {p : Nat} {x : Publisher} {phase : Phase}

/-- A timed call stays timed. -/
theorem Statement.Timed.later {statement : Statement} (h : statement.Timed s)
    (hl : s.Later s') : statement.Timed s' := by
  cases statement with
  | claim input =>
    obtain ⟨hlease, p, hp⟩ := h
    exact ⟨hlease, p, Int.le_trans hp (hl.clock p)⟩
  | mark input publishedAt => exact hl.issued h
  | reschedule input now => exact ⟨hl.issued h.1, h.2⟩

/-- A timed phase stays timed. -/
theorem Phase.Timed.later (h : phase.Timed s p) (hl : s.Later s') : phase.Timed s' p where
  issued := by
    intro e he
    obtain ⟨hissued, hclock⟩ := h.issued e he
    exact ⟨hl.issued hissued, Int.le_trans hclock (Int.add_le_add_right (hl.clock p) 30000)⟩
  claiming := by
    intro input hphase
    obtain ⟨hlease, hnow⟩ := h.claiming hphase
    exact ⟨hlease, Int.le_trans hnow (hl.clock p)⟩
  rescheduling := h.rescheduling

/-- A retry is due a second after the lease was issued, or later. -/
theorem le_retryDelayMs (attempts : Nat) : 1000 ≤ retryDelayMs attempts := by
  have hpow : 1 ≤ 2 ^ min (attempts - 1) 16 := Nat.one_le_two_pow
  simp only [retryDelayMs, RETRY_BASE_MS, RETRY_MAX_MS]
  omega

/-- The call that a timed publisher awaits is timed. -/
theorem Phase.Timed.awaited (h : phase.Timed s p) {statement : Statement}
    (hawaited : phase.awaited = some statement) : statement.Timed s := by
  cases phase with
  | claiming input =>
    cases hawaited
    obtain ⟨hlease, hnow⟩ := h.claiming rfl
    exact ⟨hlease, p, hnow⟩
  | marking event rest publishedAt =>
    cases hawaited
    exact (h.issued event List.mem_cons_self).1
  | rescheduling event rest error now =>
    cases hawaited
    refine ⟨(h.issued event List.mem_cons_self).1, ?_⟩
    have hread := h.rescheduling rfl
    have hdelay : (1000 : Int) ≤ retryDelayMs event.attempts :=
      Int.ofNat_le.mpr (le_retryDelayMs event.attempts)
    change event.nextAttemptAt < now + retryDelayMs event.attempts + 30000
    have hnow : now + 30000 < now + retryDelayMs event.attempts + 30000 :=
      Int.add_lt_add_right (Int.lt_add_of_pos_right now
        (Int.lt_of_lt_of_le (by decide : (0 : Int) < 1000) hdelay)) 30000
    exact Int.lt_of_le_of_lt hread hnow
  | loop => cases hawaited
  | batch events => cases hawaited
  | sending event rest => cases hawaited
  | sleeping => cases hawaited
  | stopped => cases hawaited

/-- The phase keeps a clock reading. -/
def Phase.keepsReading : Phase → Bool
  | .claiming _ => true
  | .rescheduling _ _ _ _ => true
  | _ => false

/-- A phase that keeps no clock reading is timed when its events are. -/
theorem Phase.timed_of_events (hnone : phase.keepsReading = false)
    (hissued : ∀ e ∈ phase.events, s.Issued (lease e) ∧ e.nextAttemptAt ≤ s.clock p + 30000) :
    phase.Timed s p where
  issued := hissued
  claiming := by
    rintro input rfl
    cases hnone
  rescheduling := by
    rintro event rest error now rfl
    cases hnone

/-- A publisher after its batch holds nothing. -/
theorem Publisher.timed_afterBatch (s : State) (p : Nat) (x : Publisher) :
    x.afterBatch.Timed s p := by
  unfold afterBatch
  split <;> exact Phase.timed_of_events rfl (by simp [Phase.events])

/-- A failure is answered with a clock reading of its own. -/
theorem Phase.timed_rescheduling {event : OutboxEvent} {rest : List OutboxEvent}
    (hissued : ∀ e ∈ event :: rest, s.Issued (lease e) ∧ e.nextAttemptAt ≤ s.clock p + 30000)
    (error : String) : (Phase.rescheduling event rest error (s.clock p)).Timed s p := by
  refine ⟨hissued, fun h ↦ ?_, fun h ↦ ?_⟩
  · cases h
  · cases h
    exact (hissued event List.mem_cons_self).2

/-- What a publisher does on its own keeps its phase timed. -/
theorem Publisher.timed_proceed (h : x.phase.Timed s p) (hp : x.proceed (s.clock p) = some phase) :
    phase.Timed s p := by
  have hissued := h.issued
  unfold proceed at hp
  split at hp
  · split at hp <;> cases hp
    · exact Phase.timed_of_events rfl (by simp [Phase.events])
    · refine ⟨by simp [Phase.events], fun hc ↦ ?_, fun hc ↦ ?_⟩
      · cases hc
        exact ⟨rfl, Int.le_refl _⟩
      · cases hc
  · next event rest hphase =>
    split at hp <;> cases hp
    · exact x.timed_afterBatch s p
    · rw [hphase] at hissued
      exact Phase.timed_of_events rfl hissued
  · cases hp
    exact x.timed_afterBatch s p
  · cases hp
    exact Phase.timed_of_events rfl (by simp [Phase.events])
  · cases hp

/-- A publisher whose call throws goes on with issued leases. -/
theorem Publisher.timed_rejected (h : x.phase.Timed s p) (error : String) :
    (x.rejected error (s.clock p)).Timed s p := by
  have hissued := h.issued
  unfold rejected
  split
  · next event rest _ hphase =>
    rw [hphase] at hissued
    exact Phase.timed_rescheduling hissued error
  · exact x.timed_afterBatch s p
  · exact x.timed_afterBatch s p
  · exact h

/-! ### Executed calls -/

/-- A claim returns rows with its lease. -/
theorem nextAttemptAt_of_mem_taken {input : ClaimPendingOutboxEventsInput} {chosen : List String}
    {rows : Rows} {e : OutboxEvent} (h : e ∈ (Statement.claim input).taken chosen rows) :
    e.nextAttemptAt = input.leaseExpiresAt := by
  obtain ⟨id, hid, hfind⟩ := List.mem_filterMap.mp h
  have he : (claimPendingOutboxEvents input chosen rows).1.find? id = some e := hfind
  rw [find?_claim] at he
  obtain ⟨row, hrow, rfl⟩ := Option.map_eq_some_iff.mp he
  have hchosen : row.id ∈ chosen := (Table.key_of_find? hrow : row.id = id) ▸ hid
  rw [if_pos hchosen]
  rfl

/-- A claimed row was due. -/
theorem due_of_chosen {input : ClaimPendingOutboxEventsInput} {chosen : List String} {rows : Rows}
    (h : (Statement.claim input).executable chosen rows = true) {id : String}
    (hid : id ∈ chosen) : ∃ row, rows.find? id = some row ∧ row.nextAttemptAt ≤ input.now := by
  simp only [Statement.executable, isChoice, Bool.and_eq_true, List.all_eq_true] at h
  have hchosen := h.1.2 id hid
  cases hrow : rows.find? id with
  | none => simp [hrow] at hchosen
  | some row =>
    refine ⟨row, rfl, ?_⟩
    simp only [hrow, Option.any_some, claimable, Bool.or_eq_true, decide_eq_true_eq] at hchosen
    rcases hchosen with ⟨-, hdue⟩ | ⟨-, hdue⟩ <;> exact hdue

/-- What a written row says about the leases of the row before. -/
private theorem written_bound {statement : Statement} {chosen : List String}
    {row : OutboxEvent} {rows : Rows} (ht : statement.Timed s)
    (hexecutable : statement.executable chosen rows = true)
    (hrow : rows.find? row.id = some row) (hw : statement.writes chosen row = true) {l : Date}
    (hbound : l < row.nextAttemptAt + 30000)
    (hprocessing : row.status = .PROCESSING → l ≤ row.nextAttemptAt) :
    l < (statement.written row).nextAttemptAt + 30000 ∧
      ((statement.written row).status = .PROCESSING →
        l ≤ (statement.written row).nextAttemptAt) := by
  cases statement with
  | claim input =>
    obtain ⟨row', hrow', hdue⟩ := due_of_chosen hexecutable (of_decide_eq_true hw)
    obtain rfl := Option.some.inj (hrow.symm.trans hrow')
    have hlease : l < input.leaseExpiresAt := by
      rw [ht.1]
      exact Int.lt_of_lt_of_le hbound (Int.add_le_add_right hdue 30000)
    exact ⟨Int.lt_trans hlease (Int.lt_add_of_pos_right _ (by decide)), fun _ ↦ Int.le_of_lt hlease⟩
  | mark input publishedAt =>
    exact ⟨hbound, nofun⟩
  | reschedule input now =>
    have hheld : Held input.toUpdateClaimedOutboxEventInput row := of_decide_eq_true hw
    have hle := hprocessing hheld.2.1
    rw [hheld.2.2] at hle
    exact ⟨Int.lt_of_le_of_lt hle ht.2, nofun⟩

/-- An executed call leads to a later state. -/
theorem later_executeStatement {statement : Statement} {chosen : List String}
    (ht : statement.Timed s) (h : s.executeStatement statement chosen = some s') :
    s.Later s' := by
  obtain ⟨hexecutable, hrows, -, hclock, -, -⟩ := executeStatement_eq h
  refine ⟨fun {held} hissued ↦ ?_, fun p ↦ Int.le_of_eq (congrFun hclock p).symm⟩
  obtain ⟨row, hrow, hbound, hprocessing⟩ := hissued
  have hkey : row.id = held.id := Table.key_of_find? hrow
  have hfind := statement.find?_rows chosen s.rows held.id
  rw [← hrows, hrow, Option.map_some] at hfind
  by_cases hw : statement.writes chosen row = true
  · rw [if_pos hw] at hfind
    obtain ⟨hbound', hprocessing'⟩ :=
      written_bound ht hexecutable (hkey ▸ hrow) hw hbound hprocessing
    exact ⟨_, hfind, hbound', hprocessing'⟩
  · rw [if_neg hw] at hfind
    exact ⟨row, hfind, hbound, hprocessing⟩

/-- A claim stores a lease above all issued ones, and issues it. -/
theorem claim_issues {input : ClaimPendingOutboxEventsInput} {chosen : List String}
    (ht : (Statement.claim input).Timed s)
    (h : s.executeStatement (.claim input) chosen = some s') {id : String} (hid : id ∈ chosen) :
    (∀ l, s.Issued ⟨id, l⟩ → l < input.leaseExpiresAt) ∧
      ∃ row, s'.rows.find? id = some row ∧ row.status = .PROCESSING ∧
        row.nextAttemptAt = input.leaseExpiresAt := by
  obtain ⟨hexecutable, hrows, -, -, -, -⟩ := executeStatement_eq h
  obtain ⟨row, hrow, hdue⟩ := due_of_chosen hexecutable hid
  constructor
  · rintro l ⟨row', hrow', hbound, -⟩
    obtain rfl := Option.some.inj (hrow.symm.trans hrow')
    rw [ht.1]
    exact Int.lt_of_lt_of_le hbound (Int.add_le_add_right hdue 30000)
  · have hkey : row.id = id := Table.key_of_find? hrow
    have hw : (Statement.claim input).writes chosen row = true := decide_eq_true (hkey ▸ hid)
    have hfind := (Statement.claim input).find?_rows chosen s.rows id
    rw [← hrows, hrow, Option.map_some, if_pos hw] at hfind
    exact ⟨_, hfind, rfl, rfl⟩

/-- A row that is `PROCESSING` under its lease has issued it. -/
theorem issued_of_row {id : String} {row : OutboxEvent} (hrow : s.rows.find? id = some row) :
    s.Issued ⟨id, row.nextAttemptAt⟩ :=
  ⟨row, hrow, Int.lt_add_of_pos_right _ (by decide), fun _ ↦ Int.le_refl _⟩

/-- A publisher that gets its answer holds issued leases. -/
theorem Publisher.timed_answered {statement : Statement} {chosen : List String}
    (h : x.phase.Timed s p) (hawaited : x.phase.awaited = some statement)
    (ht : s.executeStatement statement chosen = some s') :
    (x.answered (statement.taken chosen s.rows)).Timed s' p := by
  have hlater := later_executeStatement (h.awaited hawaited) ht
  obtain ⟨-, hrows, -, hclock, -, -⟩ := executeStatement_eq ht
  have hissued := (h.later hlater).issued
  unfold answered
  split
  · next input hphase =>
    rw [hphase] at hawaited
    cases hawaited
    refine Phase.timed_of_events rfl (fun e he ↦ ?_)
    refine ⟨issued_of_row (hrows ▸ Statement.find?_of_mem_taken he), ?_⟩
    obtain ⟨hlease, hnow⟩ := h.claiming hphase
    rw [nextAttemptAt_of_mem_taken he, hlease, hclock]
    exact Int.add_le_add_right hnow 30000
  · next event rest _ hphase =>
    rw [hphase] at hissued
    exact Phase.timed_of_events rfl (fun e he ↦ hissued e (List.mem_cons_of_mem _ he))
  · next event rest _ _ hphase =>
    rw [hphase] at hissued
    exact Phase.timed_of_events rfl (fun e he ↦ hissued e (List.mem_cons_of_mem _ he))
  · exact h.later hlater

/-! ### Steps -/

/-- A process may go to any timed phase, or end, in a later state. -/
private theorem State.Timed.setPublisher (h : s.Timed) (hlater : s.Later s') {y : Option Publisher}
    (hpublisher : s'.publisher = Function.update s.publisher p y)
    (hy : ∀ {z}, y = some z → z.phase.Timed s' p)
    (hlate : ∀ statement ∈ s'.late, statement.Timed s') : s'.Timed where
  phases := by
    intro q z hq
    rw [hpublisher] at hq
    by_cases hqp : q = p
    · subst hqp
      exact hy (by simpa using hq)
    · exact (h.phases (by simpa [hqp] using hq)).later hlater
  late := hlate

private theorem State.Timed.late_later (h : s.Timed) (hlater : s.Later s')
    (hlate : ∀ statement ∈ s'.late, statement ∈ s.late ∨ statement.Timed s') :
    ∀ statement ∈ s'.late, statement.Timed s' := by
  intro statement hmem
  rcases hlate statement hmem with hold | hnew
  · exact (h.late statement hold).later hlater
  · exact hnew

/-- Every step keeps the leases timed and leads to a later state. -/
theorem timed_step {a : Action} (hstep : step s a = some s') (h : s.Timed) :
    s'.Timed ∧ s.Later s' := by
  cases step_kind hstep with
  | @create data id now hfresh =>
    have hlater : s.Later { s with
        rows := s.rows.insert (data.row id now)
        lastWrite := Function.update s.lastWrite id now } := by
      refine ⟨fun hissued ↦ ?_, fun _ ↦ Int.le_refl _⟩
      obtain ⟨row, hrow, hbounds⟩ := hissued
      exact ⟨row, Table.find?_insert_of_some hrow, hbounds⟩
    exact ⟨⟨fun hx ↦ (h.phases hx).later hlater, fun st hst ↦ (h.late st hst).later hlater⟩, hlater⟩
  | @start p hnone =>
    have hlater : s.Later { s with
        publisher := Function.update s.publisher p (some ⟨false, .loop⟩) } := .of_eq rfl rfl
    refine ⟨h.setPublisher hlater rfl (fun hz ↦ ?_)
      (h.late_later hlater fun _ hst ↦ .inl hst), hlater⟩
    cases hz
    exact Phase.timed_of_events rfl (by simp [Phase.events])
  | @tick p now hle =>
    have hlater : s.Later { s with clock := Function.update s.clock p now } := by
      refine ⟨id, fun q ↦ ?_⟩
      by_cases hqp : q = p
      · subst hqp
        simpa using hle
      · simp [hqp]
    exact ⟨⟨fun hx ↦ (h.phases hx).later hlater, fun st hst ↦ (h.late st hst).later hlater⟩, hlater⟩
  | @shutdown p x hx =>
    have hlater : s.Later { s with
        publisher := Function.update s.publisher p (some { x with shuttingDown := true }) } :=
      .of_eq rfl rfl
    refine ⟨h.setPublisher hlater rfl (fun hz ↦ ?_)
      (h.late_later hlater fun _ hst ↦ .inl hst), hlater⟩
    cases hz
    exact (h.phases hx).later hlater
  | @crash p x delivered hx =>
    obtain ⟨hrows, hclock, hpublisher, hlate⟩ := interrupt_eq s x.phase delivered
    have hlater : s.Later { (s.interrupt x.phase delivered).giveUp x.phase with
        publisher := Function.update
          ((s.interrupt x.phase delivered).giveUp x.phase).publisher p none } := .of_eq hrows hclock
    refine ⟨h.setPublisher hlater (y := none) (by rw [← hpublisher]; rfl) (fun hz ↦ ?_)
      (h.late_later hlater fun st hst ↦ ?_), hlater⟩
    · cases hz
    rcases List.mem_append.mp hst with hold | hnew
    · exact .inl (hlate ▸ hold)
    · exact .inr (((h.phases hx).awaited (by simpa using hnew)).later hlater)
  | @proceed p x phase hx hphase =>
    have hlater : s.Later (s.setPhase p x phase) := .of_eq rfl rfl
    refine ⟨h.setPublisher hlater rfl (fun hz ↦ ?_)
      (h.late_later hlater fun _ hst ↦ .inl hst), hlater⟩
    cases hz
    exact (Publisher.timed_proceed (h.phases hx) hphase).later hlater
  | @acknowledge p x event rest hx hphase =>
    obtain ⟨hrows, hclock, hpublisher, hlate⟩ := deliver_eq s event true true
    have hlater : s.Later ((s.deliver event true true).setPhase p x
        (.marking event rest (s.clock p))) := .of_eq hrows hclock
    have hissued := ((h.phases hx).later hlater).issued
    rw [hphase] at hissued
    refine ⟨h.setPublisher hlater (by rw [← hpublisher]; rfl) (fun hz ↦ ?_)
      (h.late_later hlater fun _ hst ↦ .inl (hlate ▸ hst)), hlater⟩
    cases hz
    exact Phase.timed_of_events rfl hissued
  | @sendFails p x event rest delivered error hx hphase =>
    obtain ⟨hrows, hclock, hpublisher, hlate⟩ := deliver_eq s event delivered false
    have hlater : s.Later ((s.deliver event delivered false).setPhase p x
        (.rescheduling event rest error (s.clock p))) := .of_eq hrows hclock
    have hissued := (h.phases hx).issued
    rw [hphase] at hissued
    refine ⟨h.setPublisher hlater (by rw [← hpublisher]; rfl) (fun hz ↦ ?_)
      (h.late_later hlater fun _ hst ↦ .inl (hlate ▸ hst)), hlater⟩
    cases hz
    exact (Phase.timed_rescheduling hissued error).later hlater
  | @answer p x statement chosen t hx hawaited ht =>
    obtain ⟨-, -, -, -, hpublisher, hlate⟩ := executeStatement_eq ht
    have hlater : s.Later (t.setPhase p x (x.answered (statement.taken chosen s.rows))) :=
      (later_executeStatement ((h.phases hx).awaited hawaited) ht).trans (.of_eq rfl rfl)
    refine ⟨h.setPublisher hlater (by rw [← hpublisher]; rfl) (fun hz ↦ ?_)
      (h.late_later hlater fun _ hst ↦ .inl (hlate ▸ hst)), hlater⟩
    cases hz
    exact (Publisher.timed_answered (h.phases hx) hawaited ht).later (.of_eq rfl rfl)
  | @reject p x statement error hx hawaited =>
    have hlater : s.Later ((s.giveUp x.phase).setPhase p x (x.rejected error (s.clock p))) :=
      .of_eq rfl rfl
    refine ⟨h.setPublisher hlater rfl (fun hz ↦ ?_) (h.late_later hlater fun st hst ↦ ?_), hlater⟩
    · cases hz
      exact (Publisher.timed_rejected (h.phases hx) error).later hlater
    · rcases List.mem_append.mp hst with hold | hnew
      · exact .inl hold
      · exact .inr (((h.phases hx).awaited (by simpa using hnew)).later hlater)
  | @late k statement chosen t hk ht =>
    obtain ⟨-, -, -, -, hpublisher, hlate⟩ := executeStatement_eq ht
    have hlater : s.Later { t with late := t.late.eraseIdx k } :=
      (later_executeStatement (h.late statement (List.mem_of_getElem? hk)) ht).trans
        (.of_eq rfl rfl)
    refine ⟨⟨fun hx ↦ (h.phases (hpublisher ▸ hx)).later hlater, fun st hst ↦ ?_⟩, hlater⟩
    exact (h.late st (hlate ▸ List.mem_of_mem_eraseIdx hst)).later hlater

/-- Nothing has been claimed yet. -/
theorem State.timed_initial (clock : Nat → Date) : (State.initial clock).Timed where
  phases := fun hx ↦ nomatch hx
  late := fun _ hst ↦ nomatch hst

end

end Banking.Outbox
