import Banking.Relational.Interleaving

/-!
# Processes that run alone

Library `Relational`. While one process executes and nobody else commits, every statement sees the
same committed database and the process's own writes, so its effect is that of a sequential
program. `Alone` says what this program does; a process that ends in the machine while only it
executes does just that.
-/

namespace Relational

variable {D Lock Supply Call Reply : Type}

/-- The program returns `r` and leaves the database `db'` when nobody else commits. The arguments
after the program are its pending writes and the committed database. -/
inductive Alone : Tx D Lock Supply Reply → (D → D) → D → Reply → D → Prop
  | pure {r pending db} : Alone (.pure r) pending db r db
  | commit {next pending db r db'} (h : Alone next id (pending db) r db') :
      Alone (.commit next) pending db r db'
  | stmt {locks write next pending db r db'} (env : Env Supply)
      (h : Alone (next env (pending db)) (fun d ↦ write env (pending db) (pending d)) db r db') :
      Alone (.stmt locks write next) pending db r db'

namespace Alone

variable {β : Type} {s : Stmt D Lock Supply β} {f : β → Tx D Lock Supply Reply}
  {pending : D → D} {db db' : D} {r r' : Reply}

/-- A statement has a result, with which the program goes on. -/
theorem query_bind (h : Alone (Tx.query s >>= f) pending db r db') :
    ∃ env b, s.result env (pending db) = some b ∧
      Alone (f b) (fun d ↦ s.write env (pending db) (pending d)) db r db' := by
  rw [Tx.query_bind] at h
  cases h with
  | stmt env h =>
    dsimp only at h
    cases hr : s.result env (pending db) with
    | none =>
      rw [hr] at h
      cases h
    | some b =>
      rw [hr] at h
      exact ⟨env, b, hr, h⟩

/-- A reading statement leaves the pending writes as they are. -/
theorem read_bind (hs : s.Reads) (h : Alone (Tx.query s >>= f) pending db r db') :
    ∃ env b, s.result env (pending db) = some b ∧ Alone (f b) pending db r db' := by
  obtain ⟨env, b, hr, h⟩ := h.query_bind
  rw [hs.write] at h
  exact ⟨env, b, hr, h⟩

/-- A program that ends with its commit leaves its pending writes. -/
theorem commit_pure (h : Alone (.commit (.pure r') : Tx D Lock Supply Reply) pending db r db') :
    db' = pending db := by
  cases h with
  | commit h =>
    cases h
    rfl

/-- A program without statements leaves nothing. -/
theorem of_pure (h : Alone (.pure r' : Tx D Lock Supply Reply) pending db r db') : db' = db := by
  cases h
  rfl

end Alone

/-! ### With given choices -/

namespace Tx

variable {α β : Type}

/-- Execute the program alone, its `n`-th statement with `env n`: the reply, `none` after an
exception, and the database that is left. The arguments after the program are the number of its
next statement, its pending writes and the committed database. -/
def perform (env : Nat → Env Supply) : Tx D Lock Supply α → Nat → (D → D) → D → Option α × D
  | .pure a, _, _, db => (some a, db)
  | .throw, _, _, db => (none, db)
  | .commit next, n, pending, db => perform env next n id (pending db)
  | .stmt _ write next, n, pending, db =>
    perform env (next (env n) (pending db)) (n + 1)
      (fun d ↦ write (env n) (pending db) (pending d)) db

variable {env env' : Nat → Env Supply} {n : Nat} {pending : D → D} {db : D}

/-- A statement with a result goes on with it. -/
theorem perform_bind {s : Stmt D Lock Supply β} {f : β → Tx D Lock Supply α} {b : β}
    (h : s.result (env n) (pending db) = some b) :
    (query s >>= f).perform env n pending db =
      (f b).perform env (n + 1) (fun d ↦ s.write (env n) (pending db) (pending d)) db := by
  rw [query_bind, perform, h]

/-- A statement that writes nothing leaves the pending writes as they are. -/
theorem perform_select {s : Stmt D Lock Supply β} {f : β → Tx D Lock Supply α} {b : β}
    (hwrite : s.write (env n) (pending db) = id) (h : s.result (env n) (pending db) = some b) :
    (query s >>= f).perform env n pending db = (f b).perform env (n + 1) pending db := by
  rw [perform_bind h, hwrite]
  rfl

/-- What a program does whose reply is passed on. -/
theorem perform_map (f : α → β) (program : Tx D Lock Supply α) :
    (program >>= fun a ↦ (.pure (f a) : Tx D Lock Supply β)).perform env n pending db =
      ((program.perform env n pending db).1.map f, (program.perform env n pending db).2) := by
  induction program generalizing n pending db with
  | pure a => rfl
  | throw => rfl
  | commit next ih => exact ih
  | stmt locks write next ih => exact ih _ _

/-- Only the choices for the statements still to come matter. -/
private theorem perform_congr {program : Tx D Lock Supply α} (h : ∀ k, n ≤ k → env k = env' k) :
    program.perform env n pending db = program.perform env' n pending db := by
  induction program generalizing n pending db with
  | pure a => rfl
  | throw => rfl
  | commit next ih => exact ih h
  | stmt locks write next ih =>
    rw [perform, perform, h n (Nat.le_refl n)]
    exact ih _ _ fun k hk ↦ h k (Nat.le_of_succ_le hk)

end Tx

/-- What a program does alone it does with some choices. -/
theorem alone_iff_perform [Nonempty Supply] {program : Tx D Lock Supply Reply}
    {pending : D → D} {db db' : D} {r : Reply} {n : Nat} :
    Alone program pending db r db' ↔ ∃ env, program.perform env n pending db = (some r, db') := by
  constructor
  · intro h
    induction h generalizing n with
    | pure => exact ⟨fun _ ↦ ⟨0, Classical.ofNonempty⟩, rfl⟩
    | commit h ih => exact ih
    | stmt env₀ h ih =>
      obtain ⟨env, henv⟩ := ih (n := n + 1)
      refine ⟨fun k ↦ if k = n then env₀ else env k, ?_⟩
      rw [Tx.perform, if_pos rfl, ← henv]
      exact Tx.perform_congr fun k hk ↦ if_neg (Nat.ne_of_gt hk)
  · rintro ⟨env, h⟩
    induction program generalizing n pending db with
    | pure a =>
      cases h
      exact .pure
    | throw => cases h
    | commit next ih => exact .commit (ih h)
    | stmt locks write next ih => exact .stmt (env n) (ih _ _ h)

/-! ### With any choices -/

namespace Tx

variable {α β : Type} {P : D → Prop}

/-- Whatever is chosen for its statements, the program sees `P` after each of them when nobody else
commits. -/
def Always (P : D → Prop) : Tx D Lock Supply α → (D → D) → D → Prop
  | .pure _, _, _ => True
  | .throw, _, _ => True
  | .commit next, pending, db => Always P next id (pending db)
  | .stmt _ write next, pending, db => ∀ env, P (write env (pending db) (pending db)) ∧
      Always P (next env (pending db)) (fun d ↦ write env (pending db) (pending d)) db

variable {pending : D → D} {db : D}

/-- A statement and its continuation. -/
theorem always_bind {s : Stmt D Lock Supply β} {f : β → Tx D Lock Supply α} :
    Always P (query s >>= f) pending db ↔ ∀ env, P (s.write env (pending db) (pending db)) ∧
      ∀ b, s.result env (pending db) = some b →
        Always P (f b) (fun d ↦ s.write env (pending db) (pending d)) db := by
  rw [query_bind, Always]
  refine forall_congr' fun env ↦ and_congr_right fun _ ↦ ?_
  cases s.result env (pending db) with
  | none => simp [Always]
  | some b => simp

/-- A statement with a result goes on with it. -/
theorem Always.of_result {s : Stmt D Lock Supply β} {f : β → Tx D Lock Supply α} {b : β}
    (h : Always P (query s >>= f) pending db) (env : Env Supply)
    (hr : s.result env (pending db) = some b) :
    Always P (f b) (fun d ↦ s.write env (pending db) (pending d)) db :=
  (always_bind.mp h env).2 b hr

/-- A statement that writes nothing leaves the pending writes as they are. -/
theorem Always.of_select {s : Stmt D Lock Supply β} {f : β → Tx D Lock Supply α} {b : β}
    (h : Always P (query s >>= f) pending db) (env : Env Supply)
    (hwrite : s.write env (pending db) = id) (hr : s.result env (pending db) = some b) :
    Always P (f b) pending db := by
  have hnext := h.of_result env hr
  rw [hwrite] at hnext
  exact hnext

/-- A statement that writes nothing leaves what the program sees. -/
theorem always_select {s : Stmt D Lock Supply β} {f : β → Tx D Lock Supply α}
    (hwrite : ∀ env, s.write env (pending db) = id) (hP : P (pending db))
    (h : ∀ env b, s.result env (pending db) = some b → Always P (f b) pending db) :
    Always P (query s >>= f) pending db := by
  refine always_bind.mpr fun env ↦ ?_
  simp only [hwrite, id]
  exact ⟨hP, h env⟩

/-- The same for a statement whose result is the same whatever is chosen. -/
theorem always_select_iff [Nonempty Supply] {s : Stmt D Lock Supply β}
    {f : β → Tx D Lock Supply α} {b : β} (hwrite : ∀ env, s.write env (pending db) = id)
    (hP : P (pending db)) (hr : ∀ env, s.result env (pending db) = some b) :
    Always P (query s >>= f) pending db ↔ Always P (f b) pending db := by
  constructor
  · exact fun h ↦ h.of_select ⟨0, Classical.ofNonempty⟩ (hwrite _) (hr _)
  · intro h
    refine always_select hwrite hP fun env b' hb' ↦ ?_
    rw [hr] at hb'
    cases hb'
    exact h

/-- A reading statement leaves what the program sees. -/
theorem always_read {s : Stmt D Lock Supply β} (hs : s.Reads) {f : β → Tx D Lock Supply α}
    (hP : P (pending db))
    (h : ∀ env b, s.result env (pending db) = some b → Always P (f b) pending db) :
    Always P (query s >>= f) pending db :=
  always_select (fun env ↦ hs.write env _) hP h

/-- Passing the reply on changes nothing that the program sees. -/
theorem always_map (f : α → β) (program : Tx D Lock Supply α) :
    Always P (program >>= fun a ↦ (.pure (f a) : Tx D Lock Supply β)) pending db ↔
      Always P program pending db := by
  induction program generalizing pending db with
  | pure a => exact Iff.rfl
  | throw => exact Iff.rfl
  | commit next ih => exact ih
  | stmt locks write next ih => exact forall_congr' fun env ↦ and_congr_right fun _ ↦ ih _ _

end Tx

/-! ### In the machine -/

/-- Only process `i` executes, while time may pass. -/
def OnlyExecutes (i : Nat) (actions : List (Action Supply Call)) : Prop :=
  ∀ a ∈ actions, (∃ supply, a = .exec i supply) ∨ ∃ now, a = .tick now

variable [DecidableEq Lock] {begins : Call → D → Option (Tx D Lock Supply Reply)}
  {s s' : State D Lock Supply Call Reply} {i : Nat} {actions : List (Action Supply Call)}

/-- Once the process has ended, the database stays. -/
private theorem db_of_ended (honly : OnlyExecutes i actions)
    (hi : ∀ call born program pending,
      s.session i ≠ some ⟨call, born, .running program pending⟩)
    (h : run begins s actions = some s') : s'.session i = s.session i ∧ s'.db = s.db := by
  induction actions generalizing s with
  | nil =>
    cases h
    exact ⟨rfl, rfl⟩
  | cons a actions ih =>
    obtain ⟨ha, htail⟩ := List.forall_mem_cons.mp honly
    rw [run, execute, List.foldlM_cons] at h
    obtain ⟨t, ht, hrest⟩ := Option.bind_eq_some_iff.mp h
    rcases ha with ⟨supply, rfl⟩ | ⟨now, rfl⟩
    · cases step_kind ht with
      | stmt h => exact absurd h (hi _ _ _ _)
      | commit h => exact absurd h (hi _ _ _ _)
      | done h => exact absurd h (hi _ _ _ _)
    · cases step_kind ht with
      | tick _ => exact ih (s := { s with clock := now }) htail hi hrest

/-- A process that returns while only it executes does what it does alone. -/
theorem alone_of_run {call call' : Call} {born born' : D} {program : Tx D Lock Supply Reply}
    {pending : D → D} {r : Reply} (honly : OnlyExecutes i actions)
    (hi : s.session i = some ⟨call, born, .running program pending⟩)
    (h : run begins s actions = some s')
    (hdone : s'.session i = some ⟨call', born', .done (.returned r)⟩) :
    Alone program pending s.db r s'.db := by
  induction actions generalizing s program pending with
  | nil =>
    cases h
    rw [hi] at hdone
    cases hdone
  | cons a actions ih =>
    obtain ⟨ha, htail⟩ := List.forall_mem_cons.mp honly
    rw [run, execute, List.foldlM_cons] at h
    obtain ⟨t, ht, hrest⟩ := Option.bind_eq_some_iff.mp h
    rcases ha with ⟨supply, rfl⟩ | ⟨now, rfl⟩
    · cases step_kind ht with
      | @stmt _ _ _ _ locks write next _ hi' free =>
        cases hi.symm.trans hi'
        refine .stmt ⟨s.clock, supply⟩ (ih (s := (s.acquire i
          (locks ⟨s.clock, supply⟩ (pending s.db))).setSession i ⟨call, born,
            .running (next ⟨s.clock, supply⟩ (pending s.db))
              (fun db ↦ write ⟨s.clock, supply⟩ (pending s.db) (pending db))⟩) htail ?_ hrest)
        exact if_pos rfl
      | commit hi' =>
        cases hi.symm.trans hi'
        refine .commit (ih htail ?_ hrest)
        exact if_pos rfl
      | @done _ _ _ _ _ _ outcome hi' ends =>
        cases hi.symm.trans hi'
        have hended : (s.finish i call born outcome).session i =
            some ⟨call, born, .done outcome⟩ := if_pos rfl
        obtain ⟨hsame, hdb⟩ := db_of_ended htail (fun _ _ _ _ hrunning ↦ by
          rw [hended] at hrunning
          cases hrunning) hrest
        rw [hsame, hended] at hdone
        cases hdone
        obtain ⟨rfl, hthrew⟩ | ⟨r', rfl, hreturned⟩ := ends
        · cases hthrew
        · cases hreturned
          rw [hdb]
          exact .pure
    · cases step_kind ht with
      | tick _ => exact ih (s := { s with clock := now }) htail hi hrest

/-- While only one process executes, what it sees is as its program promises. -/
theorem always_of_run {call : Call} {born : D} {program : Tx D Lock Supply Reply}
    {pending : D → D} {P : D → Prop} (honly : OnlyExecutes i actions)
    (hi : s.session i = some ⟨call, born, .running program pending⟩)
    (hP : P (pending s.db)) (halways : Tx.Always P program pending s.db)
    (h : run begins s actions = some s') {program' : Tx D Lock Supply Reply} {pending' : D → D}
    (hi' : s'.session i = some ⟨call, born, .running program' pending'⟩) :
    P (pending' s'.db) := by
  induction actions generalizing s program pending with
  | nil =>
    cases h
    cases hi.symm.trans hi'
    exact hP
  | cons a actions ih =>
    obtain ⟨ha, htail⟩ := List.forall_mem_cons.mp honly
    rw [run, execute, List.foldlM_cons] at h
    obtain ⟨t, ht, hrest⟩ := Option.bind_eq_some_iff.mp h
    rcases ha with ⟨supply, rfl⟩ | ⟨now, rfl⟩
    · cases step_kind ht with
      | @stmt _ _ _ _ locks write next _ hj free =>
        cases hi.symm.trans hj
        obtain ⟨hview, hnext⟩ := halways ⟨s.clock, supply⟩
        refine ih (s := (s.acquire i
          (locks ⟨s.clock, supply⟩ (pending s.db))).setSession i ⟨call, born,
            .running (next ⟨s.clock, supply⟩ (pending s.db))
              (fun db ↦ write ⟨s.clock, supply⟩ (pending s.db) (pending db))⟩) htail ?_ hview hnext
          hrest
        exact if_pos rfl
      | @commit _ _ _ _ next _ hj =>
        cases hi.symm.trans hj
        refine ih (s := s.publish i call born pending next) htail ?_ hP halways hrest
        exact if_pos rfl
      | @done _ _ _ _ _ _ outcome hj ends =>
        have hended : (s.finish i call born outcome).session i =
            some ⟨call, born, .done outcome⟩ := if_pos rfl
        cases hi.symm.trans hj
        obtain ⟨hsame, -⟩ := db_of_ended htail (fun _ _ _ _ hrunning ↦ by
          rw [hended] at hrunning
          cases hrunning) hrest
        rw [hsame, hended] at hi'
        cases hi'
    · cases step_kind ht with
      | tick _ => exact ih (s := { s with clock := now }) htail hi hP halways hrest

end Relational
