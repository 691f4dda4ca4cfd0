import Banking.Relational.Guarantee

/-!
# Calls that commit at most once

Library `Relational`. A program whose only commit is its last piece but its reply has committed
nothing for as long as it has more to do. An exception of any kind before that leaves no trace.
-/

namespace Relational

namespace Tx

variable {D Lock Supply α β : Type}

/-- The program commits nothing. -/
def Uncommitted : Tx D Lock Supply α → Prop
  | .pure _ => True
  | .throw => True
  | .stmt _ _ next => ∀ e d, Uncommitted (next e d)
  | .commit _ => False

/-- The program commits at most once, and replies right after that. -/
def Atomic : Tx D Lock Supply α → Prop
  | .pure _ => True
  | .throw => True
  | .stmt _ _ next => ∀ e d, Atomic (next e d)
  | .commit next => ∃ r, next = .pure r

/-- A statement commits nothing. -/
theorem uncommitted_query (s : Stmt D Lock Supply α) : (query s).Uncommitted := by
  intro e d
  dsimp only
  cases s.result e d <;> trivial

/-- Pieces that commit nothing make a program that commits nothing. -/
theorem Uncommitted.bind {p : Tx D Lock Supply α} {f : α → Tx D Lock Supply β}
    (hp : p.Uncommitted) (hf : ∀ a, (f a).Uncommitted) : (p >>= f).Uncommitted := by
  change (Tx.bind p f).Uncommitted
  induction p with
  | pure a => exact hf a
  | throw => trivial
  | stmt locks write next ih => exact fun e d ↦ ih e d (hp e d)
  | commit next => exact hp.elim

/-- A body that commits nothing, committed and replied to, is atomic. -/
theorem Uncommitted.atomic {p : Tx D Lock Supply α} (hp : p.Uncommitted) (f : α → β) :
    (p >>= fun a ↦ .commit (.pure (f a))).Atomic := by
  change (Tx.bind p fun a ↦ .commit (.pure (f a))).Atomic
  induction p with
  | pure a => exact ⟨f a, rfl⟩
  | throw => trivial
  | stmt locks write next ih => exact fun e d ↦ ih e d (hp e d)
  | commit next => exact hp.elim

end Tx

variable {D Lock Supply Call Reply : Type}
variable {begins : Call → D → Option (Tx D Lock Supply Reply)}
variable {s s' : State D Lock Supply Call Reply} {i : Nat} {call : Call} {born : D}

/-- A step of one process adds no commit to another. -/
private theorem commitsOf_append_of_ne {j : Nat} (hj : j ≠ i) {b a : D}
    (hlog : s'.log = s.log ++ [⟨j, call, b, a⟩]) : s'.commitsOf i = s.commitsOf i := by
  simp [State.commitsOf, hlog, hj]

/-- What a process has committed when its call is atomic. -/
def CommitsLast (atomic : Call → Prop) (s : State D Lock Supply Call Reply) (i : Nat) : Prop :=
  (s.session i = none → s.commitsOf i = []) ∧
    ∀ call born program pending, atomic call →
      s.session i = some ⟨call, born, .running program pending⟩ →
      (s.commitsOf i = [] ∧ program.Atomic) ∨ ∃ r, program = .pure r

private theorem CommitsLast.replace {atomic : Call → Prop} {j : Nat}
    {phase' : Phase D Lock Supply Reply} (h : CommitsLast atomic s i)
    (hsession : s'.session = fun k ↦ if k = j then some ⟨call, born, phase'⟩ else s.session k)
    (hother : j ≠ i → s'.commitsOf i = s.commitsOf i)
    (hself : j = i → atomic call → ∀ program pending, phase' = .running program pending →
      (s'.commitsOf i = [] ∧ program.Atomic) ∨ ∃ r, program = .pure r) :
    CommitsLast atomic s' i := by
  by_cases he : j = i
  · subst he
    refine ⟨fun hnone ↦ by simp [hsession] at hnone, ?_⟩
    intro call' born' program' pending' hatomic hrunning
    simp only [hsession, if_true, Option.some.injEq, Session.mk.injEq] at hrunning
    obtain ⟨rfl, rfl, hphase⟩ := hrunning
    exact hself rfl hatomic program' pending' hphase
  · have hsame : s'.session i = s.session i := by
      rw [hsession]
      exact if_neg (Ne.symm he)
    rw [CommitsLast, hsame, hother he]
    exact h

variable [DecidableEq Lock]

/-- Every step keeps this, when the programs of atomic calls are atomic. -/
private theorem CommitsLast.step {atomic : Call → Prop}
    (hatomic : ∀ call db program, atomic call → begins call db = some program → program.Atomic)
    {a : Action Supply Call} (ha : step begins s a = some s') (h : CommitsLast atomic s i) :
    CommitsLast atomic s' i := by
  cases step_kind ha with
  | @start j call program free hb =>
    by_cases he : j = i
    · subst he
      refine ⟨fun hnone ↦ by simp [State.setSession] at hnone, ?_⟩
      intro call' born' program' pending' hcall hrunning
      simp only [State.setSession, if_true, Option.some.injEq, Session.mk.injEq,
        Phase.running.injEq] at hrunning
      obtain ⟨rfl, rfl, rfl, rfl⟩ := hrunning
      exact .inl ⟨h.1 free, hatomic call s.db program hcall hb⟩
    · have hsame : (s.setSession j ⟨call, s.db, .running program id⟩).session i = s.session i :=
        if_neg (Ne.symm he)
      rw [CommitsLast, hsame]
      exact h
  | @stmt j supply call born locks write next pending hj free =>
    refine h.replace rfl (fun _ ↦ rfl) ?_
    rintro rfl hcall _ _ ⟨⟩
    rcases h.2 call born _ pending hcall hj with ⟨hnil, hprogram⟩ | ⟨r, hr⟩
    · exact .inl ⟨hnil, hprogram _ _⟩
    · cases hr
  | @commit j supply call born next pending hj =>
    refine h.replace rfl (fun hne ↦ commitsOf_append_of_ne hne rfl) ?_
    rintro rfl hcall _ _ ⟨⟩
    rcases h.2 call born _ pending hcall hj with ⟨-, hnext⟩ | ⟨r, hr⟩
    · exact .inr hnext
    · cases hr
  | @done j supply call born program pending outcome hj ends =>
    refine h.replace rfl (fun _ ↦ rfl) ?_
    rintro rfl hcall _ _ ⟨⟩
  | @fail j call born program pending hj =>
    refine h.replace rfl (fun _ ↦ rfl) ?_
    rintro rfl hcall _ _ ⟨⟩
  | tick ht => exact h

/-- A running atomic call has committed nothing, or has nothing left but its reply. -/
theorem commitsOf_eq_nil_of_atomic {P : Call → Prop}
    (hatomic : ∀ call db program, P call → begins call db = some program → program.Atomic)
    {db₀ : D} {now : Int} (h : Runs begins (State.initial db₀ now) s) (hcall : P call)
    {program : Tx D Lock Supply Reply} {pending : D → D}
    (hi : s.session i = some ⟨call, born, .running program pending⟩)
    (hmore : ∀ r, program ≠ .pure r) : s.commitsOf i = [] := by
  have hlast : CommitsLast P s i := by
    refine Steps.invariant (P := fun s ↦ CommitsLast P s i)
      (fun _ _ _ ha hs ↦ CommitsLast.step hatomic ha hs) h ⟨fun _ ↦ rfl, ?_⟩
    intro call born program pending _ hnone
    simp [State.initial] at hnone
  rcases hlast.2 call born program pending hcall hi with ⟨hnil, -⟩ | ⟨r, hr⟩
  · exact hnil
  · exact absurd hr (hmore r)

/-- The step in which a process ends changes nothing. -/
theorem unchanged_of_end {a : Action Supply Call} (ha : step begins s a = some s')
    {program : Tx D Lock Supply Reply} {pending : D → D} {outcome : Outcome Reply}
    (hi : s.session i = some ⟨call, born, .running program pending⟩)
    (hend : s'.session i = some ⟨call, born, .done outcome⟩) :
    s'.db = s.db ∧ s'.commitsOf i = s.commitsOf i := by
  cases step_kind ha with
  | @commit j supply call' born' next pending' hj =>
    change (if i = j then some _ else s.session i) = _ at hend
    split at hend
    · cases hend
    · rw [hi] at hend
      cases hend
  | start free hb => exact ⟨rfl, rfl⟩
  | stmt hj free => exact ⟨rfl, rfl⟩
  | done hj ends => exact ⟨rfl, rfl⟩
  | fail hj => exact ⟨rfl, rfl⟩
  | tick ht => exact ⟨rfl, rfl⟩

/-- A process that has ended stays as it is and commits nothing more. -/
theorem commitsOf_done (hs : Runs begins s s') {outcome : Outcome Reply}
    (hi : s.session i = some ⟨call, born, .done outcome⟩) :
    s'.session i = some ⟨call, born, .done outcome⟩ ∧ s'.commitsOf i = s.commitsOf i := by
  refine Steps.invariant (P := fun t ↦ t.session i = some ⟨call, born, .done outcome⟩ ∧
    t.commitsOf i = s.commitsOf i) ?_ hs ⟨hi, rfl⟩
  rintro t a t' ha ⟨ht, hcommits⟩
  have key : ∀ {j call' born' program pending} phase',
      t.session j = some ⟨call', born', .running program pending⟩ →
      j ≠ i ∧ (if i = j then some ⟨call', born', phase'⟩ else t.session i) =
        some ⟨call, born, .done outcome⟩ := by
    intro j call' born' program pending phase' hj
    have he : j ≠ i := by
      rintro rfl
      rw [ht] at hj
      cases hj
    exact ⟨he, by rw [if_neg (Ne.symm he), ht]⟩
  cases step_kind ha with
  | @start j call' program free hb =>
    have he : i ≠ j := by
      rintro rfl
      rw [free] at ht
      cases ht
    exact ⟨by simpa [State.setSession, he] using ht, hcommits⟩
  | stmt hj free => exact ⟨(key _ hj).2, hcommits⟩
  | commit hj =>
    exact ⟨(key _ hj).2, (commitsOf_append_of_ne (key (.done outcome) hj).1 rfl).trans hcommits⟩
  | done hj ends => exact ⟨(key _ hj).2, hcommits⟩
  | fail hj => exact ⟨(key _ hj).2, hcommits⟩
  | tick _ => exact ⟨ht, hcommits⟩

end Relational
