import Banking.Relational.Guarantee

/-!
# Effects at one point of the run

Library `Relational`. `Promises` says of a program what its commits do and how it ends, in terms
of the committed databases at which it has executed its statements, whatever processes that own
none of its locks commit in between. Unlike `Safe` it is relative to a relation that is known to
hold of the commits of the run, and it knows which databases of the run the process has seen. If
all programs keep their promises, so does every run: the databases that a process has seen are
databases of the run, no older than the one it started from.
-/

namespace Relational

variable {D Lock Supply Call Reply : Type}

/-! ### The databases of a run -/

/-- The commits lead from one database to the next. -/
def Linked (db : D) : List (Commit D Call) → D → Prop
  | [], db' => db = db'
  | c :: log, db' => c.before = db ∧ Linked c.after log db'

/-- What every logged commit preserves, the run preserves. -/
theorem Linked.invariant {P : D → Prop} {db db' : D} {log : List (Commit D Call)}
    (h : Linked db log db') (hstep : ∀ c ∈ log, P c.before → P c.after) (hdb : P db) : P db' := by
  induction log generalizing db with
  | nil =>
    obtain rfl : db = db' := h
    exact hdb
  | cons c log ih =>
    obtain ⟨rfl, hrest⟩ := h
    obtain ⟨hfirst, hlater⟩ := List.forall_mem_cons.mp hstep
    exact ih hrest hlater (hfirst hdb)

/-- One more commit. -/
theorem Linked.append {db db' db'' : D} {log : List (Commit D Call)} (h : Linked db log db')
    (i : Nat) (call : Call) : Linked db (log ++ [⟨i, call, db', db''⟩]) db'' := by
  induction log generalizing db with
  | nil => exact ⟨Eq.symm h, rfl⟩
  | cons c log ih => exact ⟨h.1, ih h.2⟩

/-- The committed databases since `db₀`, in order. -/
def State.history (s : State D Lock Supply Call Reply) (db₀ : D) : List D :=
  db₀ :: s.log.map Commit.after

/-- The current database is the last one. -/
theorem Linked.getLast? {db₀ : D} {s : State D Lock Supply Call Reply}
    (h : Linked db₀ s.log s.db) : (s.history db₀).getLast? = some s.db := by
  have key : ∀ (log : List (Commit D Call)) (db db' : D), Linked db log db' →
      (db :: log.map Commit.after).getLast? = some db' := by
    intro log
    induction log with
    | nil => exact fun db db' h ↦ congrArg some h
    | cons c log ih =>
      intro db db' h
      rw [List.map_cons, List.getLast?_cons_cons]
      exact ih c.after db' h.2
  exact key _ _ _ h

/-- All of the databases are databases of the run from `born` on. -/
def Since (db₀ : D) (s : State D Lock Supply Call Reply) (born : D) (seen : List D) : Prop :=
  ∃ k, (s.history db₀)[k]? = some born ∧ ∀ b ∈ seen, b ∈ (s.history db₀).drop k

namespace Since

variable {db₀ : D} {s s' : State D Lock Supply Call Reply} {born : D} {seen : List D}

/-- The databases of a run stay its databases. -/
theorem later (h : Since db₀ s born seen) {log : List (Commit D Call)}
    (hlog : s'.log = s.log ++ log) : Since db₀ s' born seen := by
  obtain ⟨k, hk, hseen⟩ := h
  have hlt : k < (s.history db₀).length := (List.getElem?_eq_some_iff.mp hk).1
  have hhistory : s'.history db₀ = s.history db₀ ++ log.map Commit.after := by
    simp [State.history, hlog]
  refine ⟨k, ?_, fun b hb ↦ ?_⟩
  · rw [hhistory, List.getElem?_append_left hlt]
    exact hk
  · rw [hhistory, List.drop_append_of_le_length (Nat.le_of_lt hlt)]
    exact List.mem_append_left _ (hseen b hb)

/-- The current database is one of them. -/
theorem concat (h : Since db₀ s born seen) (hlinked : Linked db₀ s.log s.db) :
    Since db₀ s born (seen ++ [s.db]) := by
  obtain ⟨k, hk, hseen⟩ := h
  have hlt : k < (s.history db₀).length := (List.getElem?_eq_some_iff.mp hk).1
  refine ⟨k, hk, fun b hb ↦ ?_⟩
  rcases List.mem_append.mp hb with hold | hnew
  · exact hseen b hold
  · rw [List.mem_singleton.mp hnew]
    refine List.mem_of_getLast? ?_
    rw [List.getLast?_drop, if_neg (Nat.not_le.mpr hlt)]
    exact hlinked.getLast?

/-- A process that starts now. -/
theorem start (hlinked : Linked db₀ s.log s.db) : Since db₀ s s.db [s.db] := by
  obtain ⟨k, hk⟩ := List.mem_iff_getElem?.mp (List.mem_of_getLast? hlinked.getLast?)
  refine ⟨k, hk, fun b hb ↦ ?_⟩
  rw [List.mem_singleton.mp hb]
  refine List.mem_iff_getElem?.mpr ⟨0, ?_⟩
  rw [List.getElem?_drop]
  exact hk

end Since

/-! ### Promises -/

/-- Every commit that `program` can still make has the effect, and it ends as `Post` allows, which
says so in terms of the databases that the process has seen and of its commits. The arguments after
the program are the locks it owns, its pending writes, the databases it has seen, its earlier
commits and the committed database it is known to have reached. -/
def Promises (G : Call → (Lock → Prop) → D → D → Prop) (Effect : D → D → Prop)
    (Post : List D → List (D × D) → Outcome Reply → Prop) :
    Tx D Lock Supply Reply → (Lock → Prop) → (D → D) → List D → List (D × D) → D → Prop
  | .pure r, _, _, seen, hist, _ => Post seen hist (.returned r)
  | .throw, _, _, seen, hist, _ => Post seen hist .threw
  | .commit next, own, pending, seen, hist, db =>
    ∀ db', Evolves G (fun l ↦ ¬ own l) db db' →
      Effect db' (pending db') ∧ Promises G Effect Post next (fun _ ↦ False) id (seen ++ [db'])
        (hist ++ [(db', pending db')]) (pending db')
  | .stmt locks write next, own, pending, seen, hist, db =>
    ∀ env db', Evolves G (fun l ↦ ¬ own l) db db' →
      Promises G Effect Post (next env (pending db')) (fun l ↦ own l ∨ l ∈ locks env (pending db'))
        (fun d ↦ write env (pending db') (pending d)) (seen ++ [db']) hist db'

variable {G : Call → (Lock → Prop) → D → D → Prop} {Effect : D → D → Prop}

/-- What a weaker relation makes of a database, too. -/
theorem Evolves.weaken {G' : Call → (Lock → Prop) → D → D → Prop} {own : Lock → Prop} {b a : D}
    (h : Evolves G own b a) (hG : ∀ call b a, G call own b a → G' call own b a) :
    Evolves G' own b a :=
  Relation.ReflTransGen.mono (fun _ _ ⟨call, hc⟩ ↦ ⟨call, hG call _ _ hc⟩) _ _ h

variable {Post : List D → List (D × D) → Outcome Reply → Prop}

namespace Promises

variable {own : Lock → Prop} {pending : D → D} {seen : List D} {hist : List (D × D)} {db : D}

/-- Promises survive the commits of others. -/
theorem evolve {program : Tx D Lock Supply Reply} {db' : D}
    (h : Promises G Effect Post program own pending seen hist db)
    (he : Evolves G (fun l ↦ ¬ own l) db db') :
    Promises G Effect Post program own pending seen hist db' := by
  cases program with
  | pure r => exact h
  | throw => exact h
  | commit next => exact fun d he' ↦ h d (he.trans he')
  | stmt locks write next => exact fun env d he' ↦ h env d (he.trans he')

/-- A statement and its continuation. -/
theorem query_bind {β : Type} {s : Stmt D Lock Supply β} {f : β → Tx D Lock Supply Reply}
    (h : ∀ env db', Evolves G (fun l ↦ ¬ own l) db db' → ∀ b, s.result env (pending db') = some b →
      Promises G Effect Post (f b) (fun l ↦ own l ∨ l ∈ s.locks env (pending db'))
        (fun d ↦ s.write env (pending db') (pending d)) (seen ++ [db']) hist db')
    (hthrow : ∀ env db', Evolves G (fun l ↦ ¬ own l) db db' → s.result env (pending db') = none →
      Post (seen ++ [db']) hist .threw) :
    Promises G Effect Post (Tx.query s >>= f) own pending seen hist db := by
  rw [Tx.query_bind]
  intro env db' he
  dsimp only
  cases hr : s.result env (pending db') with
  | none => exact hthrow env db' he hr
  | some b => exact h env db' he b hr

/-- A reading statement leaves the locks and the pending writes as they are. -/
theorem read_bind {β : Type} {s : Stmt D Lock Supply β} (hs : s.Reads)
    {f : β → Tx D Lock Supply Reply}
    (h : ∀ env db', Evolves G (fun l ↦ ¬ own l) db db' → ∀ b, s.result env (pending db') = some b →
      Promises G Effect Post (f b) own pending (seen ++ [db']) hist db') :
    Promises G Effect Post (Tx.query s >>= f) own pending seen hist db := by
  refine query_bind (fun env db' he b hb ↦ ?_) (fun env db' _ hnone ↦ ?_)
  · simp only [hs.locks, hs.write, List.not_mem_nil, or_false, id]
    exact h env db' he b hb
  · have := hs.total env (pending db')
    simp [hnone] at this

/-- A transaction that ends with its commit. -/
theorem commit_pure {r : Reply}
    (h : ∀ db', Evolves G (fun l ↦ ¬ own l) db db' → Effect db' (pending db') ∧
      Post (seen ++ [db']) (hist ++ [(db', pending db')]) (.returned r)) :
    Promises G Effect Post (.commit (.pure r) : Tx D Lock Supply Reply) own pending seen hist db :=
  fun db' he ↦ h db' he

end Promises

/-! ### Runs -/

/-- The current database has evolved from every database of the run. -/
theorem Sound.evolves_history {begins : Call → D → Option (Tx D Lock Supply Reply)}
    {Ends : Call → D → Outcome Reply → List (D × D) → Prop} {db₀ b : D}
    {s : State D Lock Supply Call Reply} (h : Sound begins G Ends db₀ s)
    (hb : b ∈ s.history db₀) : Evolves G (fun _ ↦ True) b s.db := by
  rcases List.mem_cons.mp hb with rfl | hafter
  · exact h.evolved
  · obtain ⟨c, hc, rfl⟩ := List.mem_map.mp hafter
    exact (h.commits c hc).2.2.2

variable (Effects : Call → D → D → Prop)
variable (Ends : Call → D → List D → List (D × D) → Outcome Reply → Prop)

variable (G) in
/-- What holds in every state of a run whose programs keep their promises. -/
structure Promised (db₀ : D) (s : State D Lock Supply Call Reply) : Prop where
  /-- The log leads from the first database to the current one. -/
  linked : Linked db₀ s.log s.db
  /-- Running processes keep their promises. -/
  running : ∀ i call born program pending,
    s.session i = some ⟨call, born, .running program pending⟩ →
      ∃ seen, Since db₀ s born seen ∧ Promises G (Effects call) (Ends call born) program
        (fun l ↦ s.owner l = some i) pending seen (s.commitsOf i) s.db
  /-- Ended processes ended as promised. -/
  done : ∀ i call born outcome, s.session i = some ⟨call, born, .done outcome⟩ →
    outcome = .failed ∨ ∃ seen, Since db₀ s born seen ∧ Ends call born seen (s.commitsOf i) outcome
  /-- Every commit had the effect. -/
  commits : ∀ c ∈ s.log, Effects c.call c.before c.after

variable {Effects} {Ends}
variable {begins : Call → D → Option (Tx D Lock Supply Reply)}

namespace Promised

variable {db₀ : D} {s s' : State D Lock Supply Call Reply}

/-- Nothing has happened yet. -/
theorem initial (now : Int) :
    Promised G Effects Ends db₀ (State.initial db₀ now : State D Lock Supply Call Reply) where
  linked := rfl
  running := by intro i call born program pending h; simp [State.initial] at h
  done := by intro i call born outcome h; simp [State.initial] at h
  commits := by intro c h; simp [State.initial] at h

/-- One process moves on: it touches no lock of another process and makes at most one commit. -/
private theorem replace (hG : LockMonotone G) (h : Promised G Effects Ends db₀ s) {i : Nat}
    {call : Call} {born : D} {phase : Phase D Lock Supply Reply}
    (hsession : s'.session = fun j ↦ if j = i then some ⟨call, born, phase⟩ else s.session j)
    (howner : ∀ j, j ≠ i → ∀ l, s'.owner l = some j ↔ s.owner l = some j)
    (hlog : s'.log = s.log ∧ s'.db = s.db ∨ s'.log = s.log ++ [⟨i, call, s.db, s'.db⟩] ∧
      Evolves G (fun l ↦ s.owner l = some i) s.db s'.db ∧ Effects call s.db s'.db)
    (hrunning : ∀ program pending, phase = .running program pending →
      ∃ seen, Since db₀ s' born seen ∧ Promises G (Effects call) (Ends call born) program
        (fun l ↦ s'.owner l = some i) pending seen (s'.commitsOf i) s'.db)
    (hdone : ∀ outcome, phase = .done outcome →
      outcome = .failed ∨ ∃ seen, Since db₀ s' born seen ∧
        Ends call born seen (s'.commitsOf i) outcome) :
    Promised G Effects Ends db₀ s' := by
  have hstep : Evolves G (fun l ↦ s.owner l = some i) s.db s'.db := by
    rcases hlog with ⟨-, hd⟩ | ⟨-, he, -⟩
    · rw [hd]
      exact Evolves.refl _
    · exact he
  have hgrows : ∃ log, s'.log = s.log ++ log := by
    rcases hlog with ⟨hl, -⟩ | ⟨hl, -⟩
    · exact ⟨[], by simp [hl]⟩
    · exact ⟨_, hl⟩
  obtain ⟨log, hgrows⟩ := hgrows
  have hcommits : ∀ j, j ≠ i → s'.commitsOf j = s.commitsOf j := by
    intro j hj
    rcases hlog with ⟨hl, -⟩ | ⟨hl, -⟩
    · simp [State.commitsOf, hl]
    · simp [State.commitsOf, hl, Ne.symm hj]
  constructor
  case linked =>
    rcases hlog with ⟨hl, hd⟩ | ⟨hl, -⟩
    · rw [hl, hd]
      exact h.linked
    · rw [hl]
      exact h.linked.append i call
  case running =>
    intro j call' born' program pending hj
    by_cases he : j = i
    · subst he
      simp only [hsession, if_true, Option.some.injEq, Session.mk.injEq] at hj
      obtain ⟨rfl, rfl, rfl⟩ := hj
      exact hrunning program pending rfl
    · have hown : (fun l ↦ s'.owner l = some j) = fun l ↦ s.owner l = some j :=
        funext fun l ↦ propext (howner j he l)
      obtain ⟨seen, hseen, hpromises⟩ := h.running j call' born' program pending
        (by simpa [hsession, he] using hj)
      rw [hown, hcommits j he]
      refine ⟨seen, hseen.later hgrows, hpromises.evolve (hstep.mono hG fun l hl hl' ↦ ?_)⟩
      rw [hl] at hl'
      exact he (Option.some.inj hl').symm
  case done =>
    intro j call' born' outcome hj
    by_cases he : j = i
    · subst he
      simp only [hsession, if_true, Option.some.injEq, Session.mk.injEq] at hj
      obtain ⟨rfl, rfl, rfl⟩ := hj
      exact hdone outcome rfl
    · rw [hcommits j he]
      rcases h.done j call' born' outcome (by simpa [hsession, he] using hj) with
        hfailed | ⟨seen, hseen, hends⟩
      · exact .inl hfailed
      · exact .inr ⟨seen, hseen.later hgrows, hends⟩
  case commits =>
    intro c hc
    rcases hlog with ⟨hl, -⟩ | ⟨hl, -, heffect⟩
    · exact h.commits c (hl ▸ hc)
    · rw [hl] at hc
      rcases List.mem_append.mp hc with hold | hnew
      · exact h.commits c hold
      · rw [List.mem_singleton.mp hnew]
        exact heffect

/-- One step keeps it, provided every call makes the promises where it starts and the commits are
of the known kind. -/
theorem step [DecidableEq Lock] (hG : LockMonotone G)
    (hcommit : ∀ i call born next pending,
      s.session i = some ⟨call, born, .running (.commit next) pending⟩ →
        Evolves G (fun l ↦ s.owner l = some i) s.db (pending s.db))
    (hbegins : ∀ call program, begins call s.db = some program →
      Promises G (Effects call) (Ends call s.db) program (fun _ ↦ False) id [s.db] [] s.db)
    (hfree : ∀ l i, s.owner l = some i → s.session i ≠ none)
    (hcommits : ∀ i, s.session i = none → s.commitsOf i = [])
    (h : Promised G Effects Ends db₀ s) {a : Action Supply Call}
    (ha : Relational.step begins s a = some s') : Promised G Effects Ends db₀ s' := by
  cases step_kind ha with
  | @start i call program free hb =>
    refine replace hG h rfl (fun _ _ _ ↦ Iff.rfl) (.inl ⟨rfl, rfl⟩) ?_ ?_
    · rintro _ _ ⟨⟩
      have hown : (fun l ↦ s.owner l = some i) = fun _ ↦ False :=
        funext fun l ↦ eq_false fun hl ↦ hfree l i hl free
      refine ⟨[s.db], (Since.start h.linked).later (List.append_nil _).symm, ?_⟩
      change Promises G _ _ program (fun l ↦ s.owner l = some i) id _ (s.commitsOf i) s.db
      rw [hown, hcommits i free]
      exact hbegins call program hb
    · rintro _ ⟨⟩
  | @stmt i supply call born locks write next pending hi free =>
    refine replace hG h rfl (fun j hj ↦ owner_acquire s hj free) (.inl ⟨rfl, rfl⟩) ?_ ?_
    · rintro _ _ ⟨⟩
      obtain ⟨seen, hseen, hpromises⟩ := h.running i call born _ pending hi
      refine ⟨seen ++ [s.db], (hseen.concat h.linked).later (List.append_nil _).symm, ?_⟩
      have hown : (fun l ↦
          (s.acquire i (locks ⟨s.clock, supply⟩ (pending s.db))).owner l = some i) =
          fun l ↦ s.owner l = some i ∨ l ∈ locks ⟨s.clock, supply⟩ (pending s.db) :=
        funext fun l ↦ propext (owner_acquire_self s i _ l)
      change Promises G _ _ _ (fun l ↦ (s.acquire i _).owner l = some i) _ _ _ _
      rw [hown]
      exact hpromises ⟨s.clock, supply⟩ s.db (Evolves.refl _)
    · rintro _ ⟨⟩
  | @commit i supply call born next pending hi =>
    obtain ⟨seen, hseen, hpromises⟩ := h.running i call born _ pending hi
    obtain ⟨heffect, hnext⟩ := hpromises s.db (Evolves.refl _)
    refine replace hG h rfl (fun j hj ↦ owner_release s hj)
      (.inr ⟨rfl, hcommit i call born next pending hi, heffect⟩) ?_ ?_
    · rintro _ _ ⟨⟩
      refine ⟨seen ++ [s.db], (hseen.concat h.linked).later rfl, ?_⟩
      have hown : (fun l ↦ (s.release i).owner l = some i) = fun _ ↦ False :=
        funext fun l ↦ eq_false (owner_release_self s i l)
      have hhist : (s.publish i call born pending next).commitsOf i =
          s.commitsOf i ++ [(s.db, pending s.db)] := by
        simp [State.commitsOf, State.publish]
      change Promises G _ _ next (fun l ↦ (s.release i).owner l = some i) id _ _ (pending s.db)
      rw [hown, hhist]
      exact hnext
    · rintro _ ⟨⟩
  | @done i supply call born program pending outcome hi ends =>
    refine replace hG h rfl (fun j hj ↦ owner_release s hj) (.inl ⟨rfl, rfl⟩) ?_ ?_
    · rintro _ _ ⟨⟩
    · rintro _ ⟨⟩
      obtain ⟨seen, hseen, hpromises⟩ := h.running i call born program pending hi
      refine .inr ⟨seen, hseen.later (List.append_nil _).symm, ?_⟩
      rcases ends with ⟨rfl, rfl⟩ | ⟨r, rfl, rfl⟩
      · exact hpromises
      · exact hpromises
  | @fail i call born program pending hi =>
    refine replace hG h rfl (fun j hj ↦ owner_release s hj) (.inl ⟨rfl, rfl⟩) ?_ ?_
    · rintro _ _ ⟨⟩
    · rintro _ ⟨⟩
      exact .inl rfl
  | tick ht => exact ⟨h.linked, h.running, h.done, h.commits⟩

/-- Every run keeps it, if in each of its states the commits are of the known kind and the calls
make the promises. -/
theorem runs [DecidableEq Lock] {now : Int} (hG : LockMonotone G)
    (hcommit : ∀ t, Runs begins (State.initial db₀ now) t → ∀ i call born next pending,
      t.session i = some ⟨call, born, .running (.commit next) pending⟩ →
        Evolves G (fun l ↦ t.owner l = some i) t.db (pending t.db))
    (hbegins : ∀ t, Runs begins (State.initial db₀ now) t → ∀ call program,
      begins call t.db = some program →
        Promises G (Effects call) (Ends call t.db) program (fun _ ↦ False) id [t.db] [] t.db)
    (h : Runs begins (State.initial db₀ now) s) : Promised G Effects Ends db₀ s := by
  induction h with
  | refl => exact initial now
  | @tail t t' hrun hstep ih =>
    obtain ⟨a, ha⟩ := hstep
    have hsound := sound_trivial hrun
    refine ih.step hG (hcommit t hrun) (hbegins t hrun) (fun l i hl hnone ↦ ?_)
      (fun i hi ↦ hsound.commitsOf_eq_nil hi) ha
    obtain ⟨_, _, _, _, hi⟩ := hsound.owners l i hl
    rw [hi] at hnone
    cases hnone

end Promised

end Relational
