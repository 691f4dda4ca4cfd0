import Banking.Relational.Interleaving

/-!
# What every write keeps

Library `Relational`. A property of databases that each single write of every program keeps holds
of every committed database, however the statements interleave: pending writes are compositions of
such writes, and a commit applies them to the database of the moment.
-/

namespace Relational

variable {D Lock Supply Call Reply α β : Type} {P : D → Prop}

/-- Every write of the program keeps the property. -/
def Tx.Keeps (P : D → Prop) : Tx D Lock Supply α → Prop
  | .pure _ => True
  | .throw => True
  | .stmt _ write next =>
    (∀ env view db, P db → P (write env view db)) ∧ ∀ env view, (next env view).Keeps P
  | .commit next => next.Keeps P

namespace Tx

/-- A program with a continuation keeps what both keep. -/
theorem Keeps.bind {p : Tx D Lock Supply α} {f : α → Tx D Lock Supply β} (hp : p.Keeps P)
    (hf : ∀ a, (f a).Keeps P) : (p >>= f).Keeps P := by
  induction p with
  | pure a => exact hf a
  | throw => exact trivial
  | stmt locks write next ih => exact ⟨hp.1, fun env view ↦ ih env view (hp.2 env view)⟩
  | commit next ih => exact ih hp

/-- A statement keeps what its write keeps. -/
theorem keeps_query {s : Stmt D Lock Supply α} (h : ∀ env view db, P db → P (s.write env view db)) :
    (query s).Keeps P := by
  refine ⟨h, fun env view ↦ ?_⟩
  dsimp only
  cases s.result env view with
  | none => exact trivial
  | some a => exact trivial

/-- A transaction keeps what its body keeps. -/
theorem Keeps.transaction {p : Tx D Lock Supply α} (h : p.Keeps P) : (transaction p).Keeps P :=
  h.bind fun _ ↦ trivial

end Tx

variable {s s' : State D Lock Supply Call Reply}

/-- The committed database has the property, and the processes keep it. -/
private structure Kept (P : D → Prop) (s : State D Lock Supply Call Reply) : Prop where
  db : P s.db
  program : ∀ {i call born program pending},
    s.session i = some ⟨call, born, .running program pending⟩ → program.Keeps P
  pending : ∀ {i call born program pending},
    s.session i = some ⟨call, born, .running program pending⟩ → ∀ db, P db → P (pending db)

/-- A step that gives one process a program and pending writes that keep the property keeps it. -/
private theorem Kept.setSession (h : Kept P s) {db : D} (hdb : P db) {i : Nat}
    {x : Session D Lock Supply Call Reply} (hdb' : s'.db = db)
    (hsession : ∀ j, s'.session j = if j = i then some x else s.session j)
    (hx : ∀ program pending, x.phase = .running program pending →
      program.Keeps P ∧ ∀ db, P db → P (pending db)) : Kept P s' where
  db := hdb' ▸ hdb
  program {j call born program pending} hj := by
    rw [hsession] at hj
    split at hj
    · cases hj
      exact (hx _ _ rfl).1
    · exact h.program hj
  pending {j call born program pending} hj := by
    rw [hsession] at hj
    split at hj
    · cases hj
      exact (hx _ _ rfl).2
    · exact h.pending hj

variable [DecidableEq Lock] {begins : Call → D → Option (Tx D Lock Supply Reply)}

private theorem Kept.step (hprograms : ∀ {call db program}, begins call db = some program →
    program.Keeps P) (h : Kept P s) {a : Action Supply Call} (ha : step begins s a = some s') :
    Kept P s' := by
  cases step_kind ha with
  | @start i call program free hb =>
    refine h.setSession h.db rfl (fun j ↦ rfl) fun program' pending hphase ↦ ?_
    cases hphase
    exact ⟨hprograms hb, fun _ hdb ↦ hdb⟩
  | @stmt i supply call born locks write next pending hi free =>
    refine h.setSession h.db rfl (fun j ↦ rfl) fun program' pending' hphase ↦ ?_
    cases hphase
    exact ⟨(h.program hi).2 _ _, fun db hdb ↦ (h.program hi).1 _ _ _ (h.pending hi db hdb)⟩
  | @commit i supply call born next pending hi =>
    refine h.setSession (h.pending hi _ h.db) rfl (fun j ↦ rfl) fun program' pending' hphase ↦ ?_
    cases hphase
    have hnext : (Tx.commit next).Keeps P := h.program hi
    exact ⟨hnext, fun _ hdb ↦ hdb⟩
  | done hi ends =>
    refine h.setSession h.db rfl (fun j ↦ rfl) fun program' pending' hphase ↦ ?_
    cases hphase
  | fail hi =>
    refine h.setSession h.db rfl (fun j ↦ rfl) fun program' pending' hphase ↦ ?_
    cases hphase
  | tick ht => exact ⟨h.db, h.program, h.pending⟩

/-- What every write of every program keeps holds of all committed databases. -/
theorem keeps_runs (hprograms : ∀ {call db program}, begins call db = some program →
    program.Keeps P) {db₀ : D} {now : Int} (h₀ : P db₀)
    (h : Runs begins (State.initial db₀ now) s) : P s.db := by
  have hkept : Kept P s := by
    induction h with
    | refl => exact ⟨h₀, fun hi ↦ (nomatch hi), fun hi ↦ (nomatch hi)⟩
    | tail _ hstep ih =>
      obtain ⟨a, ha⟩ := hstep
      exact ih.step hprograms ha
  exact hkept.db

end Relational
