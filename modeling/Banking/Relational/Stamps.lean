import Banking.Relational.Interleaving

/-!
# The times that processes write

Library `Relational`. `R b a` says that what is new in `a` carries good times only. If the
statements of every program write nothing else as long as the clock shows good times, neither does
a commit, in a run during which the clock has shown good times only. A program may keep a time that
it has read and write it later.
-/

namespace Relational

variable {D Lock Supply Call Reply α β : Type} {ok : Int → Prop} {R : D → D → Prop}

/-- Every statement writes what `R` allows, while the clock shows good times. -/
def Tx.Stamps (ok : Int → Prop) (R : D → D → Prop) : Tx D Lock Supply α → Prop
  | .pure _ => True
  | .throw => True
  | .stmt _ write next => ∀ env view, ok env.now →
    (∀ db, R db (write env view db)) ∧ (next env view).Stamps ok R
  | .commit next => next.Stamps ok R

namespace Tx

/-- A program with a continuation writes what both write. -/
theorem Stamps.bind {p : Tx D Lock Supply α} {f : α → Tx D Lock Supply β} (hp : p.Stamps ok R)
    (hf : ∀ a, (f a).Stamps ok R) : (p >>= f).Stamps ok R := by
  induction p with
  | pure a => exact hf a
  | throw => exact trivial
  | stmt locks write next ih =>
    exact fun env view hok ↦ ⟨(hp env view hok).1, ih env view (hp env view hok).2⟩
  | commit next ih => exact ih hp

/-- A transaction writes what its body writes. -/
theorem Stamps.transaction {p : Tx D Lock Supply α} (h : p.Stamps ok R) :
    (transaction p).Stamps ok R :=
  h.bind fun _ ↦ trivial

end Tx

/-- The processes write what `R` allows, and the commits have. -/
structure Stamped (ok : Int → Prop) (R : D → D → Prop) (s : State D Lock Supply Call Reply) :
    Prop where
  running : ∀ i call born program pending,
    s.session i = some ⟨call, born, .running program pending⟩ →
      program.Stamps ok R ∧ ∀ db, R db (pending db)
  commits : ∀ c ∈ s.log, R c.before c.after

variable [DecidableEq Lock] {begins : Call → D → Option (Tx D Lock Supply Reply)}
variable {s s' : State D Lock Supply Call Reply}

/-- The clock does not go back. -/
theorem clock_le_step {a : Action Supply Call} (ha : step begins s a = some s') :
    s.clock ≤ s'.clock := by
  cases step_kind ha with
  | tick ht => exact ht
  | _ => exact Int.le_refl _

namespace Stamped

omit [DecidableEq Lock] in
/-- One process moves on. -/
private theorem replace (h : Stamped ok R s) {i : Nat} {x : Session D Lock Supply Call Reply}
    (hsession : s'.session = fun j ↦ if j = i then some x else s.session j)
    (hlog : ∀ c ∈ s'.log, c ∈ s.log ∨ R c.before c.after)
    (hx : ∀ program pending, x.phase = .running program pending →
      program.Stamps ok R ∧ ∀ db, R db (pending db)) : Stamped ok R s' where
  running := by
    intro j call born program pending hj
    rw [hsession] at hj
    dsimp only at hj
    split at hj
    · cases hj
      exact hx program pending rfl
    · exact h.running j call born program pending hj
  commits c hc := (hlog c hc).elim (h.commits c) id

section

variable (hrefl : ∀ b, R b b) (htrans : ∀ {b c a}, R b c → R c a → R b a)
variable (hprograms : ∀ {call db program}, begins call db = some program → program.Stamps ok R)
include hrefl htrans hprograms

/-- One step at a good time keeps it. -/
theorem step (h : Stamped ok R s) (hok : ok s.clock) {a : Action Supply Call}
    (ha : Relational.step begins s a = some s') : Stamped ok R s' := by
  cases step_kind ha with
  | @start i call program free hb =>
    refine h.replace rfl (fun c hc ↦ .inl hc) fun program' pending hphase ↦ ?_
    cases hphase
    exact ⟨hprograms hb, hrefl⟩
  | @stmt i supply call born locks write next pending hi free =>
    obtain ⟨hprogram, hpending⟩ := h.running i call born _ pending hi
    obtain ⟨hwrite, hnext⟩ := hprogram ⟨s.clock, supply⟩ (pending s.db) hok
    refine h.replace rfl (fun c hc ↦ .inl hc) fun program' pending' hphase ↦ ?_
    cases hphase
    exact ⟨hnext, fun db ↦ htrans (hpending db) (hwrite (pending db))⟩
  | @commit i supply call born next pending hi =>
    obtain ⟨hprogram, hpending⟩ := h.running i call born _ pending hi
    refine h.replace rfl (fun c hc ↦ ?_) fun program' pending' hphase ↦ ?_
    · rcases List.mem_append.mp hc with hold | hlast
      · exact .inl hold
      · obtain rfl := List.mem_singleton.mp hlast
        exact .inr (hpending s.db)
    · cases hphase
      exact ⟨hprogram, hrefl⟩
  | @done i supply call born program pending outcome hi ends =>
    refine h.replace rfl (fun c hc ↦ .inl hc) fun program' pending' hphase ↦ ?_
    cases hphase
  | @fail i call born program pending hi =>
    refine h.replace rfl (fun c hc ↦ .inl hc) fun program' pending' hphase ↦ ?_
    cases hphase
  | tick ht => exact ⟨h.running, h.commits⟩

/-- The commits of a run write what `R` allows, if the clock has shown good times. -/
theorem runs {db₀ : D} {now : Int} (h : Runs begins (State.initial db₀ now) s)
    (hok : ∀ t, now ≤ t → t ≤ s.clock → ok t) : now ≤ s.clock ∧ Stamped ok R s := by
  induction h with
  | refl =>
    refine ⟨Int.le_refl _, ⟨?_, ?_⟩⟩
    · intro i call born program pending hi
      cases hi
    · intro c hc
      cases hc
  | @tail t t' _ hstep ih =>
    obtain ⟨a, ha⟩ := hstep
    have hle := clock_le_step ha
    obtain ⟨hnow, hstamped⟩ := ih fun τ hlow hhigh ↦ hok τ hlow (Int.le_trans hhigh hle)
    exact ⟨Int.le_trans hnow hle,
      hstamped.step hrefl htrans hprograms (hok t.clock hnow hle) ha⟩

end

end Stamped

end Relational
