import Banking.Relational.Interleaving

/-!
# What the locks of a process allow it to write

Library `Relational`. `R own b a` says that a process that owns `own` may make `a` of `b`. If every
statement writes only what its own locks allow, every commit writes only what the locks allow that
the process owns at its commit, however the statements interleave: the pending writes are a
composition of such writes, and locks are kept until the transaction ends.
-/

namespace Relational

variable {D Lock Supply Call Reply α β : Type} {R : (Lock → Prop) → D → D → Prop}

/-- Writes under locks compose, and more locks allow more. -/
structure Footprint (R : (Lock → Prop) → D → D → Prop) : Prop where
  refl : ∀ own b, R own b b
  trans : ∀ {own b c a}, R own b c → R own c a → R own b a
  mono : ∀ {own own' b a}, (∀ l, own l → own' l) → R own b a → R own' b a

/-- Every statement of the program writes what its own locks allow. -/
def Tx.Locks (R : (Lock → Prop) → D → D → Prop) : Tx D Lock Supply α → Prop
  | .pure _ => True
  | .throw => True
  | .stmt locks write next =>
    (∀ env view db, R (· ∈ locks env view) db (write env view db)) ∧
      ∀ env view, (next env view).Locks R
  | .commit next => next.Locks R

namespace Tx

/-- A program with a continuation locks what both lock. -/
theorem Locks.bind {p : Tx D Lock Supply α} {f : α → Tx D Lock Supply β} (hp : p.Locks R)
    (hf : ∀ a, (f a).Locks R) : (p >>= f).Locks R := by
  induction p with
  | pure a => exact hf a
  | throw => exact trivial
  | stmt locks write next ih => exact ⟨hp.1, fun env view ↦ ih env view (hp.2 env view)⟩
  | commit next ih => exact ih hp

/-- A statement locks what it writes. -/
theorem locks_query {s : Stmt D Lock Supply α}
    (h : ∀ env view db, R (· ∈ s.locks env view) db (s.write env view db)) :
    (query s).Locks R := by
  refine ⟨h, fun env view ↦ ?_⟩
  dsimp only
  cases s.result env view with
  | none => exact trivial
  | some a => exact trivial

/-- A transaction locks what its body locks. -/
theorem Locks.transaction {p : Tx D Lock Supply α} (h : p.Locks R) : (transaction p).Locks R :=
  h.bind fun _ ↦ trivial

end Tx

variable {s s' : State D Lock Supply Call Reply}

/-- Every running process writes what its locks allow, and has pending writes of that kind. -/
def Footed (R : (Lock → Prop) → D → D → Prop) (s : State D Lock Supply Call Reply) : Prop :=
  ∀ i call born program pending, s.session i = some ⟨call, born, .running program pending⟩ →
    program.Locks R ∧ ∀ db, R (fun l ↦ s.owner l = some i) db (pending db)

namespace Footed

variable (hR : Footprint R)
include hR

/-- One process moves on, and the others keep their locks. -/
private theorem replace (h : Footed R s) {i : Nat} {x : Session D Lock Supply Call Reply}
    (hsession : s'.session = fun j ↦ if j = i then some x else s.session j)
    (howner : ∀ j, j ≠ i → ∀ l, s.owner l = some j → s'.owner l = some j)
    (hx : ∀ program pending, x.phase = .running program pending →
      program.Locks R ∧ ∀ db, R (fun l ↦ s'.owner l = some i) db (pending db)) :
    Footed R s' := by
  intro j call born program pending hj
  rw [hsession] at hj
  dsimp only at hj
  split at hj
  · next he =>
    subst he
    cases hj
    exact hx program pending rfl
  · next he =>
    obtain ⟨hprogram, hpending⟩ := h j call born program pending hj
    exact ⟨hprogram, fun db ↦ hR.mono (howner j he) (hpending db)⟩

variable [DecidableEq Lock] {begins : Call → D → Option (Tx D Lock Supply Reply)}

/-- One step keeps it. -/
theorem step (hprograms : ∀ {call db program}, begins call db = some program → program.Locks R)
    (h : Footed R s) {a : Action Supply Call} (ha : Relational.step begins s a = some s') :
    Footed R s' := by
  have hreleased : ∀ i j, j ≠ i → ∀ l, s.owner l = some j → (s.release i).owner l = some j := by
    intro i j hj l hl
    simp [State.release, hl, hj]
  cases step_kind ha with
  | @start i call program free hb =>
    refine h.replace hR rfl (fun _ _ _ hl ↦ hl) fun program' pending hphase ↦ ?_
    cases hphase
    exact ⟨hprograms hb, fun db ↦ hR.refl _ db⟩
  | @stmt i supply call born locks write next pending hi free =>
    obtain ⟨⟨hwrite, hnext⟩, hpending⟩ := h i call born _ pending hi
    refine h.replace hR rfl (fun j hj l hl ↦ ?_) fun program' pending' hphase ↦ ?_
    · have hnot : l ∉ locks ⟨s.clock, supply⟩ (pending s.db) := by
        intro hmem
        rcases free l hmem with hf | hf
        · simp [hf] at hl
        · exact hj (Option.some.inj (hl.symm.trans hf))
      simp [State.setSession, State.acquire, hnot, hl]
    · cases hphase
      refine ⟨hnext _ _, fun db ↦ hR.trans (hR.mono (fun l hl ↦ ?_) (hpending db))
        (hR.mono (fun l hl ↦ ?_) (hwrite _ _ (pending db)))⟩
      · simp only [State.setSession, State.acquire]
        split
        · rfl
        · exact hl
      · simp [State.setSession, State.acquire, hl]
  | @commit i supply call born next pending hi =>
    obtain ⟨hprogram, -⟩ := h i call born _ pending hi
    refine h.replace hR rfl (hreleased i) fun program' pending' hphase ↦ ?_
    cases hphase
    exact ⟨hprogram, fun db ↦ hR.refl _ db⟩
  | @done i supply call born program pending outcome hi ends =>
    refine h.replace hR rfl (hreleased i) fun program' pending' hphase ↦ ?_
    cases hphase
  | @fail i call born program pending hi =>
    refine h.replace hR rfl (hreleased i) fun program' pending' hphase ↦ ?_
    cases hphase
  | tick ht => exact h

/-- Every run keeps it. -/
theorem runs (hprograms : ∀ {call db program}, begins call db = some program → program.Locks R)
    {db₀ : D} {now : Int} (h : Runs begins (State.initial db₀ now) s) : Footed R s := by
  induction h with
  | refl =>
    intro i call born program pending hi
    simp [State.initial] at hi
  | tail _ hstep ih =>
    obtain ⟨a, ha⟩ := hstep
    exact ih.step hR hprograms ha

end Footed

end Relational
