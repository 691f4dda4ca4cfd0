import Banking.Relational.Interleaving

/-!
# What processes do not see

Library `Relational`. `add` is a change of the database made from outside, such as a row that
appears, and `apart` holds of the databases that it leaves alone. If no program sees the change,
every run goes on in the same way had the change been made before: the states are the same but for
the change, where the processes started and what has been logged.
-/

namespace Relational

variable {D Lock Supply Call Reply α β : Type} {add : D → D} {apart : D → Prop}

/-- The statement does not see the change, and its write goes together with it. -/
structure Stmt.Ignores (add : D → D) (apart : D → Prop) (s : Stmt D Lock Supply β) : Prop where
  locks : ∀ env db, apart db → s.locks env (add db) = s.locks env db
  result : ∀ env db, apart db → s.result env (add db) = s.result env db
  write : ∀ env db, apart db → s.write env (add db) = s.write env db
  commutes : ∀ env view db, apart db → s.write env view (add db) = add (s.write env view db)
  apart : ∀ env view db, apart db → apart (s.write env view db)

/-- The program does not see the change, and its writes go together with it. -/
def Tx.Ignores (add : D → D) (apart : D → Prop) : Tx D Lock Supply α → Prop
  | .pure _ => True
  | .throw => True
  | .stmt locks write next => ∀ env view, apart view →
    locks env (add view) = locks env view ∧ write env (add view) = write env view ∧
      next env (add view) = next env view ∧
      (∀ db, apart db → write env view (add db) = add (write env view db) ∧
        apart (write env view db)) ∧
      (next env view).Ignores add apart
  | .commit next => next.Ignores add apart

namespace Tx

/-- Programs one after the other. -/
theorem Ignores.bind {p : Tx D Lock Supply α} {f : α → Tx D Lock Supply β}
    (hp : p.Ignores add apart) (hf : ∀ a, (f a).Ignores add apart) :
    (p >>= f).Ignores add apart := by
  induction p with
  | pure a => exact hf a
  | throw => exact trivial
  | stmt locks write next ih =>
    intro env view hview
    obtain ⟨hlocks, hwrite, hnext, hcommutes, hrest⟩ := hp env view hview
    exact ⟨hlocks, hwrite, congrArg (Tx.bind · f) hnext, hcommutes, ih env view hrest⟩
  | commit next ih => exact ih hp

/-- A transaction ignores what its body ignores. -/
theorem Ignores.transaction {p : Tx D Lock Supply α} (h : p.Ignores add apart) :
    (transaction p).Ignores add apart :=
  h.bind fun _ ↦ trivial

/-- A statement that does not see the change, followed by programs that do not. -/
theorem Ignores.query_bind {s : Stmt D Lock Supply β} {f : β → Tx D Lock Supply α}
    (hs : s.Ignores add apart)
    (hf : ∀ env view b, apart view → s.result env view = some b → (f b).Ignores add apart) :
    (query s >>= f).Ignores add apart := by
  rw [Tx.query_bind]
  intro env view hview
  refine ⟨hs.locks env view hview, hs.write env view hview, ?_,
    fun db hdb ↦ ⟨hs.commutes env view db hdb, hs.apart env view db hdb⟩, ?_⟩
  · simp only [hs.result env view hview]
  · dsimp only
    cases hr : s.result env view with
    | none => exact trivial
    | some b => exact hf env view b hview hr

/-- A statement that does not see the change. -/
theorem ignores_query {s : Stmt D Lock Supply α} (hs : s.Ignores add apart) :
    (query s).Ignores add apart := by
  intro env view hview
  refine ⟨hs.locks env view hview, hs.write env view hview, by simp only [hs.result env view hview],
    fun db hdb ↦ ⟨hs.commutes env view db hdb, hs.apart env view db hdb⟩, ?_⟩
  dsimp only
  cases s.result env view with
  | none => exact trivial
  | some b => exact trivial

/-- No program sees a change that changes nothing. -/
theorem ignores_id (program : Tx D Lock Supply α) : program.Ignores id (fun _ ↦ True) := by
  induction program with
  | pure a => exact trivial
  | throw => exact trivial
  | stmt locks write next ih =>
    exact fun env view _ ↦ ⟨rfl, rfl, rfl, fun _ _ ↦ ⟨rfl, trivial⟩, ih env view⟩
  | commit next ih => exact ih

end Tx

/-- The pending writes go together with the change. -/
def Commutes (add : D → D) (apart : D → Prop) (pending : D → D) : Prop :=
  ∀ db, apart db → pending (add db) = add (pending db) ∧ apart (pending db)

/-- The database is apart from the change, and no process sees it. -/
structure Ignoring (add : D → D) (apart : D → Prop) (s : State D Lock Supply Call Reply) :
    Prop where
  db : apart s.db
  running : ∀ i call born program pending,
    s.session i = some ⟨call, born, .running program pending⟩ →
    program.Ignores add apart ∧ Commutes add apart pending

/-- `t` is `s` with the change, but for where the processes started and what has been logged. -/
structure Lifts (add : D → D) (s t : State D Lock Supply Call Reply) : Prop where
  db : t.db = add s.db
  clock : t.clock = s.clock
  owner : t.owner = s.owner
  session : ∀ i, (t.session i).map (fun x ↦ (x.call, x.phase)) =
    (s.session i).map (fun x ↦ (x.call, x.phase))

variable {s s' t : State D Lock Supply Call Reply}

/-- A state is itself with nothing changed. -/
theorem Lifts.refl (s : State D Lock Supply Call Reply) : Lifts id s s :=
  ⟨rfl, rfl, rfl, fun _ ↦ rfl⟩

/-- A process runs in both states. -/
theorem Lifts.running (h : Lifts add s t) {i : Nat} {call : Call} {born : D}
    {phase : Phase D Lock Supply Reply} (hi : s.session i = some ⟨call, born, phase⟩) :
    ∃ born', t.session i = some ⟨call, born', phase⟩ := by
  have hsame := h.session i
  rw [hi] at hsame
  obtain ⟨⟨call', born', phase'⟩, ht, he⟩ := Option.map_eq_some_iff.mp hsame
  cases he
  exact ⟨born', ht⟩

/-- A process has started in neither state. -/
theorem Lifts.free (h : Lifts add s t) {i : Nat} (hi : s.session i = none) :
    t.session i = none := by
  simpa [hi] using h.session i

/-- One process does the same in both states. -/
private theorem Lifts.setSession (h : Lifts add s t) (i : Nat) (call : Call) (born born' : D)
    (phase : Phase D Lock Supply Reply) :
    Lifts add (s.setSession i ⟨call, born, phase⟩) (t.setSession i ⟨call, born', phase⟩) := by
  refine ⟨h.db, h.clock, h.owner, fun j ↦ ?_⟩
  simp only [State.setSession]
  split
  · rfl
  · exact h.session j

/-- One process moves on without seeing the change. -/
private theorem Ignoring.replace (h : Ignoring add apart s) {i : Nat}
    {x : Session D Lock Supply Call Reply} (hdb : apart s'.db)
    (hsession : s'.session = fun j ↦ if j = i then some x else s.session j)
    (hx : ∀ program pending, x.phase = .running program pending →
      program.Ignores add apart ∧ Commutes add apart pending) : Ignoring add apart s' := by
  refine ⟨hdb, fun j call born program pending hj ↦ ?_⟩
  rw [hsession] at hj
  dsimp only at hj
  split at hj
  · cases hj
    exact hx program pending rfl
  · exact h.running j call born program pending hj

variable [DecidableEq Lock] {begins : Call → D → Option (Tx D Lock Supply Reply)}

/-- Every kind of step is a step. -/
theorem StepKind.step {a : Action Supply Call} (h : StepKind begins s a s') :
    Relational.step begins s a = some s' := by
  cases h with
  | start free hb => simp [Relational.step, free, hb]
  | @stmt i supply call born locks write next pending hi free =>
    have hgranted : s.granted i (locks ⟨s.clock, supply⟩ (pending s.db)) = true :=
      List.all_eq_true.mpr fun l hl ↦ by simpa using free l hl
    simp [Relational.step, hi, State.advance, hgranted]
  | commit hi => simp [Relational.step, hi, State.advance]
  | done hi ends =>
    rcases ends with ⟨rfl, rfl⟩ | ⟨r, rfl, rfl⟩ <;> simp [Relational.step, hi, State.advance]
  | fail hi => simp [Relational.step, hi]
  | tick ht => simp [Relational.step, ht]

/-- A call that starts begins alike with the change, and its program does not see it. -/
def StartsIgnoring (begins : Call → D → Option (Tx D Lock Supply Reply)) (add : D → D)
    (apart : D → Prop) (db : D) : Action Supply Call → Prop
  | .start _ call => ∀ program, begins call db = some program →
    begins call (add db) = some program ∧ program.Ignores add apart
  | _ => True

/-- One step is blind to the change if what it starts is. -/
theorem Ignoring.step (h : Ignoring add apart s) {a : Action Supply Call}
    (ha : Relational.step begins s a = some s') (hstart : StartsIgnoring begins add apart s.db a) :
    Ignoring add apart s' := by
  cases step_kind ha with
  | @start i call program free hb =>
    refine h.replace h.db rfl fun program' pending hphase ↦ ?_
    cases hphase
    exact ⟨(hstart program hb).2, fun db hdb ↦ ⟨rfl, hdb⟩⟩
  | @stmt i supply call born locks write next pending hi free =>
    obtain ⟨hprogram, hpending⟩ := h.running i call born _ pending hi
    obtain ⟨-, -, -, hwrite, hnext⟩ := hprogram ⟨s.clock, supply⟩ _ (hpending _ h.db).2
    refine h.replace h.db rfl fun program' pending' hphase ↦ ?_
    cases hphase
    refine ⟨hnext, fun db hdb ↦ ?_⟩
    obtain ⟨hsame, hapart⟩ := hpending db hdb
    obtain ⟨hwritten, hafter⟩ := hwrite (pending db) hapart
    exact ⟨(congrArg _ hsame).trans hwritten, hafter⟩
  | @commit i supply call born next pending hi =>
    obtain ⟨hprogram, hpending⟩ := h.running i call born _ pending hi
    refine h.replace (hpending _ h.db).2 rfl fun program' pending' hphase ↦ ?_
    cases hphase
    exact ⟨hprogram, fun db hdb ↦ ⟨rfl, hdb⟩⟩
  | done hi ends => exact h.replace h.db rfl fun _ _ hphase ↦ by cases hphase
  | fail hi => exact h.replace h.db rfl fun _ _ hphase ↦ by cases hphase
  | tick ht => exact ⟨h.db, h.running⟩

/-- One step goes on in the same way with the change made before. -/
theorem Lifts.step (h : Lifts add s t) (hs : Ignoring add apart s) {a : Action Supply Call}
    (ha : Relational.step begins s a = some s') (hstart : StartsIgnoring begins add apart s.db a) :
    ∃ t', Relational.step begins t a = some t' ∧ Lifts add s' t' := by
  have hrelease : ∀ i, Lifts add (s.release i) (t.release i) := fun i ↦
    ⟨h.db, h.clock, by simp only [State.release, h.owner], h.session⟩
  cases step_kind ha with
  | @start i call program free hb =>
    refine ⟨_, StepKind.step (.start (h.free free) (h.db ▸ (hstart program hb).1)), ?_⟩
    exact h.setSession i call _ _ _
  | @stmt i supply call born locks write next pending hi free =>
    obtain ⟨hprogram, hpending⟩ := hs.running i call born _ pending hi
    obtain ⟨hview, hapart⟩ := hpending _ hs.db
    obtain ⟨hlocks, hwrite, hnext, -, -⟩ := hprogram ⟨s.clock, supply⟩ _ hapart
    obtain ⟨born', ht⟩ := h.running hi
    -- the process sees the change in its view, and does as without it
    have hviews : pending t.db = add (pending s.db) := by rw [h.db, hview]
    refine ⟨_, StepKind.step (.stmt ht ?_), ?_⟩
    · rw [h.clock, h.owner, hviews, hlocks]
      exact free
    · rw [h.clock, hviews, hlocks, hwrite, hnext]
      have hacquire : Lifts add (s.acquire i (locks ⟨s.clock, supply⟩ (pending s.db)))
          (t.acquire i (locks ⟨s.clock, supply⟩ (pending s.db))) :=
        ⟨h.db, h.clock, by simp only [State.acquire, h.owner], h.session⟩
      exact hacquire.setSession i call born born' _
  | @commit i supply call born next pending hi =>
    obtain ⟨-, hpending⟩ := hs.running i call born _ pending hi
    obtain ⟨born', ht⟩ := h.running hi
    have hset := (hrelease i).setSession i call born born' (.running next id)
    refine ⟨_, StepKind.step (.commit ht), ?_, hset.clock, hset.owner, hset.session⟩
    change pending t.db = add (pending s.db)
    rw [h.db, (hpending _ hs.db).1]
  | @done i supply call born program pending outcome hi ends =>
    obtain ⟨born', ht⟩ := h.running hi
    exact ⟨_, StepKind.step (.done ht ends), (hrelease i).setSession i call born born' _⟩
  | @fail i call born program pending hi =>
    obtain ⟨born', ht⟩ := h.running hi
    exact ⟨_, StepKind.step (.fail ht), (hrelease i).setSession i call born born' _⟩
  | @tick now ht =>
    exact ⟨_, StepKind.step (.tick (h.clock ▸ ht)), h.db, rfl, h.owner, h.session⟩

/-- Without a change, one step can be repeated from a state that is the same. -/
theorem Lifts.again (h : Lifts id s t) {a : Action Supply Call}
    (ha : Relational.step begins s a = some s') :
    ∃ t', Relational.step begins t a = some t' ∧ Lifts id s' t' := by
  have hs : Ignoring id (fun _ ↦ True) s :=
    ⟨trivial, fun _ _ _ program _ _ ↦ ⟨program.ignores_id, fun _ _ ↦ ⟨rfl, trivial⟩⟩⟩
  refine h.step hs ha ?_
  cases a with
  | start i call => exact fun program hb ↦ ⟨hb, program.ignores_id⟩
  | _ => exact trivial

end Relational
