import Banking.Outbox.Fencing
import Banking.Outbox.Steps
import Banking.Properties.Outbox

/-!
# The lease is a fencing token

In every run of any number of publishers, with clocks that may differ but never go back, the
leases of the claims of one event increase. After the next claim no update with an earlier lease
finds the row any more, and a claim can be executed while an earlier lease still runs only if the
holder of that lease has given the event back.
-/

namespace Banking.Outbox

open Js (Date)
open Relational (Table)

/-- The step executes a claim that takes the event. -/
structure Claims (s : State) (a : Action) (s' : State) (id : String)
    (input : ClaimPendingOutboxEventsInput) : Prop where
  taken : ∃ chosen, Executes s a (.claim input) chosen ∧ id ∈ chosen
  step : step s a = some s'

/-- The row and the lease that a call presents. -/
def Statement.presents : Statement → Option UpdateClaimedOutboxEventInput
  | .claim _ => none
  | .mark input _ => some input
  | .reschedule input _ => some input.toUpdateClaimedOutboxEventInput

/-- The process to which step `a` answered, in state `t`, has since then asked for the call. -/
def Asked (a : Action) (t s : State) (statement : Statement) : Prop :=
  ∃ p chosen v x, a = .answer p chosen ∧ Runs t v ∧ Runs v s ∧ v.publisher p = some x ∧
    x.phase.awaited = some statement

/-- Between `t` and `s` the row was rescheduled with this lease, and the process to which step
`a` answered had asked for it. -/
def Released (a : Action) (t s : State) (held : UpdateClaimedOutboxEventInput) : Prop :=
  ∃ u b u' input now chosen, Runs t u ∧ Executes u b (.reschedule input now) chosen ∧
    step u b = some u' ∧ Runs u' s ∧ input.toUpdateClaimedOutboxEventInput = held ∧
    (rescheduleOutboxEvent input u.rows).2 = true ∧ Asked a t u (.reschedule input now)

/-- What holds of the lease `l` that step `a` gave the event by a claim that left state `t`. -/
structure Fences (a : Action) (t : State) (id : String) (l : Date) : Prop where
  /-- The row is `PROCESSING` under the lease. -/
  stored : ∃ row, t.rows.find? id = some row ∧ row.status = .PROCESSING ∧ row.nextAttemptAt = l
  /-- Every later claim of the event stores a greater one. -/
  increasing : ∀ {s b t' input}, Runs t s → Claims s b t' id input → l < input.leaseExpiresAt
  /-- From the next claim on, both updates return `false` and change nothing. -/
  stale : ∀ {s b t' input s'}, Runs t s → Claims s b t' id input → Runs t' s' →
    (∀ publishedAt, markOutboxEventPublished ⟨id, l⟩ publishedAt s'.rows = (s'.rows, false)) ∧
      ∀ input' : RescheduleOutboxEventInput,
        input'.toUpdateClaimedOutboxEventInput = ⟨id, l⟩ →
          rescheduleOutboxEvent input' s'.rows = (s'.rows, false)
  /-- The next claim reads its clock, or is executed, before the lease ends only if the holder
  has rescheduled the event. -/
  overlap : ∀ {s b t' input}, Runs t s → Claims s b t' id input →
    input.now < l ∨ (∀ p, s.clock p < l) → Released a t s ⟨id, l⟩

/-! ### Reachable states -/

section

variable {clock : Nat → Date} {s s' t : State} {a : Action} {id : String} {l : Date}
  {input : ClaimPendingOutboxEventsInput}

/-- In every reachable state all leases are timed. -/
theorem timed (h : Runs (.initial clock) s) : s.Timed :=
  Relational.Steps.invariant (P := State.Timed) (fun _ _ _ hstep ht ↦ (timed_step hstep ht).1) h
    (State.timed_initial clock)

/-- A run from a timed state leads to later ones. -/
theorem later_runs (hs : s.Timed) (h : Runs s s') : s'.Timed ∧ s.Later s' :=
  Relational.Steps.invariant (P := fun u ↦ u.Timed ∧ s.Later u)
    (fun _ _ _ hstep hu ↦
      ⟨(timed_step hstep hu.1).1, hu.2.trans (timed_step hstep hu.1).2⟩)
    h ⟨hs, .refl s⟩

/-- An executed call was timed. -/
theorem Executes.timed {statement : Statement} {chosen : List String}
    (h : Executes s a statement chosen) (hs : s.Timed) : statement.Timed s := by
  cases h with
  | answer hx hawaited => exact (hs.phases hx).awaited hawaited
  | late hk => exact hs.late _ (List.mem_of_getElem? hk)

/-- A claim stores a lease above all issued ones. -/
theorem Claims.issues (h : Claims s a t id input) (hs : s.Timed) :
    (∀ l, s.Issued ⟨id, l⟩ → l < input.leaseExpiresAt) ∧
      ∃ row, t.rows.find? id = some row ∧ row.status = .PROCESSING ∧
        row.nextAttemptAt = input.leaseExpiresAt := by
  obtain ⟨chosen, hexecutes, hid⟩ := h.taken
  obtain ⟨u, hu, hrows⟩ := hexecutes.executed h.step
  rw [hrows]
  exact claim_issues (hexecutes.timed hs) hu hid

/-- The lease of a claim is issued from the claim on. -/
theorem Claims.issued (h : Claims s a t id input) (hs : s.Timed) (ht : Runs t s') :
    s'.Issued ⟨id, input.leaseExpiresAt⟩ := by
  obtain ⟨-, row, hrow, -, hlease⟩ := h.issues hs
  exact (later_runs (timed_step h.step hs).1 ht).2.issued (hlease ▸ issued_of_row hrow)

/-- A process that awaits a call with a lease holds the event under that lease. -/
theorem Phase.mem_events_of_presents {phase : Phase} {statement : Statement}
    {held : UpdateClaimedOutboxEventInput} (hawaited : phase.awaited = some statement)
    (hpresents : statement.presents = some held) : ∃ e ∈ phase.events, lease e = held := by
  cases phase with
  | marking event rest publishedAt =>
    cases hawaited
    exact ⟨event, List.mem_cons_self, Option.some.inj hpresents⟩
  | rescheduling event rest error now =>
    cases hawaited
    exact ⟨event, List.mem_cons_self, Option.some.inj hpresents⟩
  | claiming input =>
    cases hawaited
    cases hpresents
  | loop => cases hawaited
  | batch events => cases hawaited
  | sending event rest => cases hawaited
  | sleeping => cases hawaited
  | stopped => cases hawaited

/-! ### Who holds the lease -/

/-- Only the process that got the answer holds the lease, and only calls that it asked for
present it. -/
structure Traced (a : Action) (t s : State) (held : UpdateClaimedOutboxEventInput) : Prop where
  runs : Runs t s
  holder : ∀ {p x e}, s.publisher p = some x → e ∈ x.phase.events → lease e = held →
    ∃ chosen, a = .answer p chosen
  late : ∀ {statement}, statement ∈ s.late → statement.presents = some held →
    Asked a t s statement

/-- A call that is awaited under the lease was asked for by the holder. -/
theorem Traced.asked {held : UpdateClaimedOutboxEventInput} (h : Traced a t s held) {p : Nat}
    {x : Publisher} {statement : Statement} (hx : s.publisher p = some x)
    (hawaited : x.phase.awaited = some statement) (hpresents : statement.presents = some held) :
    Asked a t s statement := by
  obtain ⟨e, he, hlease⟩ := Phase.mem_events_of_presents hawaited hpresents
  obtain ⟨chosen, ha⟩ := h.holder hx he hlease
  exact ⟨p, chosen, s, x, ha, h.runs, .refl, hx, hawaited⟩

/-- What was asked for stays so. -/
theorem Asked.tail {statement : Statement} (h : Asked a t s statement)
    (hstep : ∃ b, Outbox.step s b = some s') : Asked a t s' statement := by
  obtain ⟨p, chosen, v, x, ha, hv, hs, hx, hawaited⟩ := h
  exact ⟨p, chosen, v, x, ha, hv, hs.tail hstep, hx, hawaited⟩

/-- A lease that nobody presented before is traced from its claim on. -/
theorem Claims.traced (h : Claims s a t id input) (hs : s.Timed) :
    Traced a t t ⟨id, input.leaseExpiresAt⟩ where
  runs := .refl
  holder := by
    intro p x e hx he hlease
    rcases events_step h.step hx he with ⟨y, hy, hold⟩ | ⟨y, input', chosen, ha, -, -, -⟩
    · have hissued := ((hs.phases hy).issued e hold).1
      rw [hlease] at hissued
      exact absurd ((h.issues hs).1 _ hissued) (Int.lt_irrefl _)
    · exact ⟨chosen, ha⟩
  late := by
    intro statement hmem hpresents
    have htimed : statement.Timed s := by
      rcases late_step h.step hmem with hold | ⟨p, x, hx, hawaited⟩
      · exact hs.late statement hold
      · exact (hs.phases hx).awaited hawaited
    have hissued : s.Issued ⟨id, input.leaseExpiresAt⟩ := by
      cases statement with
      | claim input' => cases hpresents
      | mark input' publishedAt => exact Option.some.inj hpresents ▸ htimed
      | reschedule input' now => exact Option.some.inj hpresents ▸ htimed.1
    exact absurd ((h.issues hs).1 _ hissued) (Int.lt_irrefl _)

/-- A claim of the event answers with another lease, so every step keeps the lease traced. -/
theorem Traced.step {held : UpdateClaimedOutboxEventInput} (h : Traced a t s held)
    (hs : s.Timed) (hissued : s.Issued held) {b : Action} (hstep : Outbox.step s b = some s') :
    Traced a t s' held where
  runs := h.runs.tail ⟨b, hstep⟩
  holder := by
    intro p x e hx he hlease
    rcases events_step hstep hx he with
      ⟨y, hy, hold⟩ | ⟨y, input, chosen, rfl, hy, hawaited, htaken⟩
    · exact h.holder hy hold hlease
    · have hchosen : held.id ∈ chosen := by
        obtain ⟨id, hid, hfind⟩ := List.mem_filterMap.mp htaken
        have hkey : e.id = id := Table.key_of_find? hfind
        exact (congrArg UpdateClaimedOutboxEventInput.id hlease).symm.trans hkey ▸ hid
      have hclaims : Claims s (.answer p chosen) s' held.id input :=
        ⟨⟨chosen, .answer hy hawaited, hchosen⟩, hstep⟩
      have hlt := (hclaims.issues hs).1 held.leaseExpiresAt hissued
      rw [← nextAttemptAt_of_mem_taken htaken, ← hlease] at hlt
      exact absurd hlt (Int.lt_irrefl _)
  late := by
    intro statement hmem hpresents
    rcases late_step hstep hmem with hold | ⟨p, x, hx, hawaited⟩
    · exact (h.late hold hpresents).tail ⟨b, hstep⟩
    · exact (h.asked hx hawaited hpresents).tail ⟨b, hstep⟩

/-! ### While the lease runs -/

/-- Nobody can claim the row before the lease ends: it is not due, and it is `PROCESSING` under
this lease or under one that was issued after its end. -/
def State.Reserved (s : State) (held : UpdateClaimedOutboxEventInput) : Prop :=
  ∃ row, s.rows.find? held.id = some row ∧ held.leaseExpiresAt ≤ row.nextAttemptAt ∧
    (row.status = .PROCESSING →
      row.nextAttemptAt = held.leaseExpiresAt ∨
        held.leaseExpiresAt + 30000 ≤ row.nextAttemptAt)

/-- An executed call leaves the row reserved, unless it reschedules it under the lease. -/
theorem State.Reserved.executeStatement {held : UpdateClaimedOutboxEventInput}
    (h : s.Reserved held) {statement : Statement} {chosen : List String}
    (ht : statement.Timed s) (hs : s.executeStatement statement chosen = some s') :
    s'.Reserved held ∨ ∃ input now, statement = .reschedule input now ∧
      input.toUpdateClaimedOutboxEventInput = held ∧
      (rescheduleOutboxEvent input s.rows).2 = true := by
  obtain ⟨row, hrow, hle, hprocessing⟩ := h
  obtain ⟨hexecutable, hrows, -⟩ := executeStatement_eq hs
  have hkey : row.id = held.id := Table.key_of_find? hrow
  have hfind := statement.find?_rows chosen s.rows held.id
  rw [← hrows, hrow, Option.map_some] at hfind
  by_cases hw : statement.writes chosen row = true
  · rw [if_pos hw] at hfind
    cases statement with
    | claim input =>
      obtain ⟨row', hrow', hdue⟩ := due_of_chosen hexecutable (of_decide_eq_true hw)
      rw [hkey] at hrow'
      obtain rfl := Option.some.inj (hrow.symm.trans hrow')
      have hlease : held.leaseExpiresAt + 30000 ≤ input.leaseExpiresAt := by
        rw [ht.1]
        exact Int.add_le_add_right (Int.le_trans hle hdue) 30000
      refine .inl ⟨_, hfind, ?_, fun _ ↦ .inr hlease⟩
      exact Int.le_trans (Int.le_add_of_nonneg_right (by decide)) hlease
    | mark input publishedAt => exact .inl ⟨_, hfind, hle, fun hp ↦ nomatch hp⟩
    | reschedule input now =>
      have hheld : Held input.toUpdateClaimedOutboxEventInput row := of_decide_eq_true hw
      rcases hprocessing hheld.2.1 with heq | hlater
      · refine .inr ⟨input, now, rfl, ?_, ?_⟩
        · obtain ⟨heldId, heldLease⟩ := held
          obtain ⟨⟨inputId, inputLease⟩, error, next⟩ := input
          rw [← show row.id = inputId from hheld.1, ← show row.nextAttemptAt = inputLease from
            hheld.2.2, hkey, heq]
        · change (s.rows.find? input.id).any (fun row ↦ decide (Held _ row)) = true
          rw [← hheld.1, hkey, hrow]
          exact decide_eq_true hheld
      · refine .inl ⟨_, hfind, ?_, fun hp ↦ nomatch hp⟩
        have hnext : held.leaseExpiresAt + 30000 < input.nextAttemptAt + 30000 :=
          Int.lt_of_le_of_lt hlater (hheld.2.2 ▸ ht.2)
        exact Int.le_of_lt (Int.lt_of_add_lt_add_right hnext)
  · rw [if_neg hw] at hfind
    exact .inl ⟨row, hfind, hle, hprocessing⟩

/-- From its claim on a lease is traced, and the row is reserved until the holder reschedules
it. -/
theorem Claims.reserved (h : Claims s a t id input) (hs : s.Timed) (ht : Runs t s') :
    Traced a t s' ⟨id, input.leaseExpiresAt⟩ ∧
      (s'.Reserved ⟨id, input.leaseExpiresAt⟩ ∨ Released a t s' ⟨id, input.leaseExpiresAt⟩) := by
  induction ht with
  | refl =>
    obtain ⟨-, row, hrow, -, hlease⟩ := h.issues hs
    exact ⟨h.traced hs, .inl ⟨row, hrow, Int.le_of_eq hlease.symm, fun _ ↦ .inl hlease⟩⟩
  | @tail u u' hu hstep ih =>
    obtain ⟨htraced, hreserved⟩ := ih
    obtain ⟨b, hb⟩ := hstep
    have hu' : u.Timed := (later_runs (timed_step h.step hs).1 hu).1
    refine ⟨htraced.step hu' (h.issued hs hu) hb, ?_⟩
    rcases hreserved with hreserved | ⟨v, c, v', input', now, chosen, hv, hexecutes, hc, hv', hrest⟩
    · rcases rows_step hb with hrows | ⟨data, id', now, -, hfresh, hrows⟩ |
        ⟨statement, chosen, hexecutes⟩
      · left
        unfold State.Reserved
        rw [hrows]
        exact hreserved
      · left
        obtain ⟨row, hrow, hbounds⟩ := hreserved
        exact ⟨row, hrows ▸ Table.find?_insert_of_some hrow, hbounds⟩
      · obtain ⟨w, hw, hrows⟩ := hexecutes.executed hb
        rcases hreserved.executeStatement (hexecutes.timed hu') hw with
          hkept | ⟨input', now, rfl, hheld, hfound⟩
        · left
          unfold State.Reserved
          rw [hrows]
          exact hkept
        · right
          refine ⟨u, b, u', input', now, chosen, hu, hexecutes, hb, .refl, hheld, hfound, ?_⟩
          have hpresents : (Statement.reschedule input' now).presents =
              some ⟨id, input.leaseExpiresAt⟩ := congrArg some hheld
          cases hexecutes with
          | answer hx hawaited => exact htraced.asked hx hawaited hpresents
          | late hk => exact htraced.late (List.mem_of_getElem? hk) hpresents
    · exact .inr ⟨v, c, v', input', now, chosen, hv, hexecutes, hc, hv'.tail ⟨b, hb⟩, hrest⟩

/-- A reserved row is claimed by a call that read its clock after the lease, and executed when
a clock has passed it. -/
theorem Claims.not_reserved (h : Claims s a t id input) (hs : s.Timed)
    (hearly : input.now < l ∨ ∀ p, s.clock p < l) : ¬ s.Reserved ⟨id, l⟩ := by
  rintro ⟨row, hrow, hle, -⟩
  obtain ⟨chosen, hexecutes, hid⟩ := h.taken
  obtain ⟨u, hu, -⟩ := hexecutes.executed h.step
  obtain ⟨row', hrow', hdue⟩ := due_of_chosen (executeStatement_eq hu).1 hid
  obtain rfl := Option.some.inj (hrow.symm.trans hrow')
  have hnow : l ≤ input.now := Int.le_trans hle hdue
  rcases hearly with hlt | hclock
  · exact absurd hlt (Int.not_lt.mpr hnow)
  · obtain ⟨-, p, hp⟩ := hexecutes.timed hs
    exact absurd (hclock p) (Int.not_lt.mpr (Int.le_trans hnow hp))

/-! ### The token -/

/-- The lease of every claim fences off the earlier ones. -/
theorem lease_fences (h : Runs (.initial clock) s) (hclaim : Claims s a t id input) :
    Fences a t id input.leaseExpiresAt where
  stored := (hclaim.issues (timed h)).2
  increasing := by
    intro u b t' input' hu hnext
    have hu' : u.Timed := (later_runs (timed_step hclaim.step (timed h)).1 hu).1
    exact (hnext.issues hu').1 _ (hclaim.issued (timed h) hu)
  stale := by
    intro u b t' input' s' hu hnext hs'
    have hu' : u.Timed := (later_runs (timed_step hclaim.step (timed h)).1 hu).1
    have hlt := (hnext.issues hu').1 _ (hclaim.issued (timed h) hu)
    -- the row stays above the lease of the second claim while it is `PROCESSING`
    obtain ⟨row, hrow, -, hprocessing⟩ := hnext.issued hu' hs'
    have hnot : ∀ {row'}, s'.rows.find? id = some row' →
        ¬ Held ⟨id, input.leaseExpiresAt⟩ row' := by
      intro row' hrow' hheld
      obtain rfl := Option.some.inj (hrow.symm.trans hrow')
      have hle := hprocessing hheld.2.1
      rw [hheld.2.2] at hle
      exact absurd hlt (Int.not_lt.mpr hle)
    refine ⟨fun publishedAt ↦ updateHeld_of_not_held hnot _ _, fun held hheld ↦ ?_⟩
    rw [rescheduleOutboxEvent, hheld]
    exact updateHeld_of_not_held hnot _ _
  overlap := by
    intro u b t' input' hu hnext hearly
    have hu' : u.Timed := (later_runs (timed_step hclaim.step (timed h)).1 hu).1
    rcases (hclaim.reserved (timed h) hu).2 with hreserved | hreleased
    · exact absurd hreserved (hnext.not_reserved hu' hearly)
    · exact hreleased

end

/-! ### A run -/

namespace Sample

/-- The claim that process `p` awaits. -/
def awaitedClaim (s : State) (p : Nat) : Option ClaimPendingOutboxEventsInput := do
  let x ← s.publisher p
  match x.phase with
  | .claiming input => some input
  | _ => none

/-- The answer to an awaited claim executes it. -/
theorem claims_of_awaitedClaim {s t : State} {p : Nat} {chosen : List String} {id : String}
    {input : ClaimPendingOutboxEventsInput} (hawaited : awaitedClaim s p = some input)
    (hid : id ∈ chosen) (hstep : step s (.answer p chosen) = some t) :
    Claims s (.answer p chosen) t id input := by
  obtain ⟨x, hx, hinput⟩ := Option.bind_eq_some_iff.mp hawaited
  split at hinput
  · next hphase =>
    cases hinput
    exact ⟨⟨chosen, .answer hx (congrArg Phase.awaited hphase), hid⟩, hstep⟩
  · cases hinput

/-- A publisher is about to claim an event. -/
def beforeClaim : List Action := [.create data "event-1" 0, .start 0, .proceed 0]

/-- Its send fails, it reschedules the event for a second later, and another publisher is about
to claim it while the first lease still runs. -/
def backOff : List Action :=
  [.proceed 0, .sendFails 0 true "timeout", .answer 0 [], .start 1, .tick 0 5000, .tick 1 5000,
    .proceed 1]

end Sample

/-- The first of two overlapping claims fences off what it should. -/
theorem lease_fences_backOff : ∃ s t u t',
    Claims s (.answer 0 ["event-1"]) t "event-1" ⟨0, 30000, 100⟩ ∧ Runs t u ∧
      Claims u (.answer 1 ["event-1"]) t' "event-1" ⟨5000, 35000, 100⟩ ∧
      Fences (.answer 0 ["event-1"]) t "event-1" 30000 := by
  have hrun : (do
      let s ← Relational.execute step (.initial fun _ ↦ 0) Sample.beforeClaim
      let input ← Sample.awaitedClaim s 0
      let t ← step s (.answer 0 ["event-1"])
      let u ← Relational.execute step t Sample.backOff
      let input' ← Sample.awaitedClaim u 1
      let _ ← step u (.answer 1 ["event-1"])
      return (input, input')) =
      some ((⟨0, 30000, 100⟩, ⟨5000, 35000, 100⟩) :
        ClaimPendingOutboxEventsInput × ClaimPendingOutboxEventsInput) := by
    decide +kernel
  obtain ⟨s, hs, hrun⟩ := Option.bind_eq_some_iff.mp hrun
  obtain ⟨input, hinput, hrun⟩ := Option.bind_eq_some_iff.mp hrun
  obtain ⟨t, ht, hrun⟩ := Option.bind_eq_some_iff.mp hrun
  obtain ⟨u, hu, hrun⟩ := Option.bind_eq_some_iff.mp hrun
  obtain ⟨input', hinput', hrun⟩ := Option.bind_eq_some_iff.mp hrun
  obtain ⟨t', ht', hrun⟩ := Option.bind_eq_some_iff.mp hrun
  cases hrun
  have hclaims := Sample.claims_of_awaitedClaim hinput (List.mem_singleton_self "event-1") ht
  exact ⟨s, t, u, t', hclaims, Relational.steps_of_execute hu,
    Sample.claims_of_awaitedClaim hinput' (by simp) ht',
    lease_fences (Relational.steps_of_execute hs) hclaims⟩

end Banking.Outbox
