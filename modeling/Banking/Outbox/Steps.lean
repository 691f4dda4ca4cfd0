import Banking.Outbox.Safety

/-!
# Where rows, held events and given-up calls come from

What a step makes of the table, of the events that a publisher holds, and of the calls that were
given up, each read off the kinds of a step once.
-/

namespace Banking.Outbox

open Relational (Table)

/-- The step executes the call with this choice of rows, for the process that awaits it or after
its process has given it up. -/
inductive Executes (s : State) : Action → Statement → List String → Prop
  | answer {p x statement chosen} (hx : s.publisher p = some x)
      (hawaited : x.phase.awaited = some statement) : Executes s (.answer p chosen) statement chosen
  | late {k statement chosen} (hk : s.late[k]? = some statement) :
      Executes s (.late k chosen) statement chosen

variable {s s' : State} {a : Action}

/-- A step that executes a call leaves the table that the call makes. -/
theorem Executes.executed {statement : Statement} {chosen : List String}
    (h : Executes s a statement chosen) (hstep : step s a = some s') :
    ∃ t, s.executeStatement statement chosen = some t ∧ s'.rows = t.rows := by
  cases h with
  | answer hx hawaited =>
    cases step_kind hstep with
    | answer hx' hawaited' ht =>
      obtain rfl := Option.some.inj (hx.symm.trans hx')
      obtain rfl := Option.some.inj (hawaited.symm.trans hawaited')
      exact ⟨_, ht, rfl⟩
  | late hk =>
    cases step_kind hstep with
    | late hk' ht =>
      obtain rfl := Option.some.inj (hk.symm.trans hk')
      exact ⟨_, ht, rfl⟩

/-- A step leaves the table as it is, adds a row, or executes a call. -/
theorem rows_step (hstep : step s a = some s') :
    s'.rows = s.rows ∨
    (∃ data id now, a = .create data id now ∧ s.rows.find? id = none ∧
      s'.rows = s.rows.insert (data.row id now)) ∨
    ∃ statement chosen, Executes s a statement chosen := by
  cases step_kind hstep with
  | create hfresh => exact .inr (.inl ⟨_, _, _, rfl, hfresh, rfl⟩)
  | start hnone => exact .inl rfl
  | tick hle => exact .inl rfl
  | shutdown hx => exact .inl rfl
  | @crash p x delivered hx => exact .inl (interrupt_eq s x.phase delivered).1
  | proceed hx hphase => exact .inl rfl
  | @acknowledge p x event rest hx hphase => exact .inl (deliver_eq s event true true).1
  | @sendFails p x event rest delivered error hx hphase =>
    exact .inl (deliver_eq s event delivered false).1
  | answer hx hawaited ht => exact .inr (.inr ⟨_, _, .answer hx hawaited⟩)
  | reject hx hawaited => exact .inl rfl
  | late hk ht => exact .inr (.inr ⟨_, _, .late hk⟩)

/-- Only the creation of an event adds a row. -/
theorem absent_step {id : String} (hcreate : ∀ data id now, a ≠ .create data id now)
    (hstep : step s a = some s') (hnone : s.rows.find? id = none) :
    s'.rows.find? id = none := by
  rcases rows_step hstep with hrows | ⟨data, k, now, rfl, -⟩ | ⟨statement, chosen, hexecutes⟩
  · rw [hrows]
    exact hnone
  · exact absurd rfl (hcreate data k now)
  · obtain ⟨t, ht, hrows⟩ := hexecutes.executed hstep
    rw [hrows, (executeStatement_eq ht).2.1, Statement.find?_rows, hnone, Option.map_none]

/-- A given-up call was given up before, or is the one that a process awaited until now. -/
theorem late_step (hstep : step s a = some s') {statement : Statement}
    (hmem : statement ∈ s'.late) :
    statement ∈ s.late ∨
      ∃ p x, s.publisher p = some x ∧ x.phase.awaited = some statement := by
  cases step_kind hstep with
  | create hfresh => exact .inl hmem
  | start hnone => exact .inl hmem
  | tick hle => exact .inl hmem
  | shutdown hx => exact .inl hmem
  | @crash p x delivered hx =>
    rcases List.mem_append.mp hmem with hold | hnew
    · exact .inl ((interrupt_eq s x.phase delivered).2.2.2 ▸ hold)
    · exact .inr ⟨p, x, hx, by simpa using hnew⟩
  | proceed hx hphase => exact .inl hmem
  | @acknowledge p x event rest hx hphase =>
    exact .inl ((deliver_eq s event true true).2.2.2 ▸ hmem)
  | @sendFails p x event rest delivered error hx hphase =>
    exact .inl ((deliver_eq s event delivered false).2.2.2 ▸ hmem)
  | answer hx hawaited ht => exact .inl ((executeStatement_eq ht).2.2.2.2.2 ▸ hmem)
  | @reject p x _ _ hx hawaited =>
    rcases List.mem_append.mp hmem with hold | hnew
    · exact .inl hold
    · exact .inr ⟨p, x, hx, by simpa using hnew⟩
  | late hk ht =>
    exact .inl ((executeStatement_eq ht).2.2.2.2.2 ▸ List.mem_of_mem_eraseIdx hmem)

/-! ### Held events -/

/-- After its batch a publisher holds nothing. -/
theorem Publisher.events_afterBatch (x : Publisher) : x.afterBatch.events = [] := by
  unfold afterBatch
  split <;> rfl

/-- What a publisher does on its own adds no event. -/
theorem Publisher.events_proceed {now : Js.Date} {x : Publisher} {phase : Phase}
    (h : x.proceed now = some phase) : phase.events ⊆ x.phase.events := by
  unfold proceed at h
  split at h
  · split at h <;> cases h <;> exact List.nil_subset _
  · next event rest hphase =>
    split at h <;> cases h
    · rw [x.events_afterBatch]
      exact List.nil_subset _
    · rw [hphase]
      exact List.Subset.refl _
  · cases h
    rw [x.events_afterBatch]
    exact List.nil_subset _
  · cases h
    exact List.nil_subset _
  · cases h

/-- A publisher whose call throws gains no event. -/
theorem Publisher.events_rejected (x : Publisher) (error : String) (now : Js.Date) :
    (x.rejected error now).events ⊆ x.phase.events := by
  unfold rejected
  split
  · next event rest _ hphase =>
    rw [hphase]
    exact List.Subset.refl _
  · rw [x.events_afterBatch]
    exact List.nil_subset _
  · rw [x.events_afterBatch]
    exact List.nil_subset _
  · exact List.Subset.refl _

/-- A publisher gains events by the answer to a claim only. -/
theorem Publisher.events_answered {x : Publisher} {statement : Statement} {chosen : List String}
    {rows : Rows} (hawaited : x.phase.awaited = some statement) {e : OutboxEvent}
    (he : e ∈ (x.answered (statement.taken chosen rows)).events) :
    e ∈ x.phase.events ∨ (∃ input, statement = .claim input) ∧ e ∈ statement.taken chosen rows := by
  unfold answered at he
  split at he
  · next input hphase =>
    rw [hphase] at hawaited
    cases hawaited
    exact .inr ⟨⟨input, rfl⟩, he⟩
  · next event rest _ hphase =>
    rw [hphase]
    exact .inl (List.mem_cons_of_mem _ he)
  · next event rest _ _ hphase =>
    rw [hphase]
    exact .inl (List.mem_cons_of_mem _ he)
  · exact .inl he

/-- A publisher that holds an event held it before, or has just been answered a claim of it. -/
theorem events_step (hstep : step s a = some s') {q : Nat} {y : Publisher}
    (hy : s'.publisher q = some y) {e : OutboxEvent} (he : e ∈ y.phase.events) :
    (∃ x, s.publisher q = some x ∧ e ∈ x.phase.events) ∨
      ∃ x input chosen, a = .answer q chosen ∧ s.publisher q = some x ∧
        x.phase.awaited = some (.claim input) ∧
        e ∈ (Statement.claim input).taken chosen s.rows := by
  -- a step replaces what one process is doing and leaves the others alone
  have key : ∀ {p : Nat} {z : Option Publisher}, s'.publisher = Function.update s.publisher p z →
      (p = q → z = some y → (∃ x, s.publisher q = some x ∧ e ∈ x.phase.events) ∨
        ∃ x input chosen, a = .answer q chosen ∧ s.publisher q = some x ∧
          x.phase.awaited = some (.claim input) ∧
          e ∈ (Statement.claim input).taken chosen s.rows) →
      (∃ x, s.publisher q = some x ∧ e ∈ x.phase.events) ∨
        ∃ x input chosen, a = .answer q chosen ∧ s.publisher q = some x ∧
          x.phase.awaited = some (.claim input) ∧
          e ∈ (Statement.claim input).taken chosen s.rows := by
    intro p z hpublisher hself
    rw [hpublisher] at hy
    by_cases hqp : p = q
    · subst hqp
      exact hself rfl (by simpa using hy)
    · exact .inl ⟨y, by simpa [Ne.symm hqp] using hy, he⟩
  cases step_kind hstep with
  | create hfresh => exact .inl ⟨y, hy, he⟩
  | tick hle => exact .inl ⟨y, hy, he⟩
  | @start p hnone =>
    refine key (p := p) rfl fun _ hz ↦ ?_
    cases hz
    cases he
  | @shutdown p x hx =>
    refine key (p := p) rfl fun hpq hz ↦ ?_
    subst hpq
    cases hz
    exact .inl ⟨x, hx, he⟩
  | @crash p x delivered hx =>
    refine key (p := p) (by rw [← (interrupt_eq s x.phase delivered).2.2.1]; rfl) fun _ hz ↦ ?_
    cases hz
  | @proceed p x phase hx hphase =>
    refine key (p := p) rfl fun hpq hz ↦ ?_
    subst hpq
    cases hz
    exact .inl ⟨x, hx, Publisher.events_proceed hphase he⟩
  | @acknowledge p x event rest hx hphase =>
    refine key (p := p) (by rw [← (deliver_eq s event true true).2.2.1]; rfl) fun hpq hz ↦ ?_
    subst hpq
    cases hz
    exact .inl ⟨x, hx, hphase ▸ he⟩
  | @sendFails p x event rest delivered error hx hphase =>
    refine key (p := p) (by rw [← (deliver_eq s event delivered false).2.2.1]; rfl) fun hpq hz ↦ ?_
    subst hpq
    cases hz
    exact .inl ⟨x, hx, hphase ▸ he⟩
  | @answer p x statement chosen t hx hawaited ht =>
    refine key (p := p) (by rw [← (executeStatement_eq ht).2.2.2.2.1]; rfl) fun hpq hz ↦ ?_
    subst hpq
    cases hz
    rcases Publisher.events_answered hawaited he with hold | ⟨⟨input, rfl⟩, hnew⟩
    · exact .inl ⟨x, hx, hold⟩
    · exact .inr ⟨x, input, chosen, rfl, hx, hawaited, hnew⟩
  | @reject p x statement error hx hawaited =>
    refine key (p := p) rfl fun hpq hz ↦ ?_
    subst hpq
    cases hz
    exact .inl ⟨x, hx, Publisher.events_rejected x error _ he⟩
  | @late k statement chosen t hk ht =>
    exact .inl ⟨y, (executeStatement_eq ht).2.2.2.2.1 ▸ hy, he⟩

end Banking.Outbox
