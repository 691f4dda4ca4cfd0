import Banking.Relational.Guarantee

/-!
# Freedom from deadlock

Library `Relational`. A statement that needs several locks takes them one after the other, so a
process that waits has some of them and waits at the next. The wait-for graph of a state has an
edge from a process that waits at a lock to the process that has it. It has no cycle if every
process asks for locks of rising rank. A lock of low rank may be taken late where no other
process can have it; to say so, `Held` gives what is known of a database in which a process that
owns `own` has the lock.
-/

namespace Relational

variable {D Lock Supply Call Reply : Type}

/-! ### The wait-for graph -/

/-- The locks that the next statement of process `i` takes, in order. -/
def State.needed (s : State D Lock Supply Call Reply) (i : Nat) (supply : Supply) : List Lock :=
  match s.session i with
  | some ⟨_, _, .running (.stmt locks _ _) pending⟩ => locks ⟨s.clock, supply⟩ (pending s.db)
  | _ => []

/-- Process `i` is at a statement that takes the locks `held` and then `l`, and has got as far as
`held`. -/
def WaitsAt (s : State D Lock Supply Call Reply) (i : Nat) (held : List Lock) (l : Lock) : Prop :=
  ∃ supply rest, s.needed i supply = held ++ l :: rest ∧
    ∀ l' ∈ held, s.owner l' = none ∨ s.owner l' = some i

/-- Processes that wait at the same time, each with the locks it has taken of its statement and
the lock it waits at. -/
structure Waits (s : State D Lock Supply Call Reply) where
  point : Nat → Option (List Lock × Lock)
  waits : ∀ i held l, point i = some (held, l) → WaitsAt s i held l

namespace Waits

variable {s : State D Lock Supply Call Reply}

/-- Process `j` has the lock, from an earlier statement or from the one it waits in. -/
def Has (w : Waits s) (j : Nat) (l : Lock) : Prop :=
  s.owner l = some j ∨ ∃ held l', w.point j = some (held, l') ∧ l ∈ held

/-- Process `i` waits for process `j`. -/
def For (w : Waits s) (i j : Nat) : Prop :=
  i ≠ j ∧ ∃ held l, w.point i = some (held, l) ∧ w.Has j l

end Waits

/-! ### Programs that take locks in order -/

section Order

variable (G : Call → (Lock → Prop) → D → D → Prop) (rank : Lock → Nat)
variable (Held : D → (Lock → Prop) → Lock → Prop)

/-- No process beside one that owns `own` can have the lock. -/
def Unshared (own : Lock → Prop) (db : D) (l : Lock) : Prop :=
  ∀ own', (∀ o, own' o → ¬ own o) → own' l → ¬ Held db own' l

/-- What a process that owns `own` may ask for in one statement: locks of rising rank, each above
all that it owns or out of reach of the others. -/
structure Asks (own : Lock → Prop) (db : D) (locks : List Lock) : Prop where
  rising : locks.Pairwise (fun l l' ↦ rank l < rank l')
  above : ∀ l ∈ locks, (∀ o, own o → rank o < rank l) ∨ Unshared Held own db l
  held : ∀ l ∈ locks, Held db own l

/-- Every statement of `program` asks for locks in order, whatever processes that own none of its
locks commit in between. The arguments after the program are those of `Safe`. -/
def Ordered : Tx D Lock Supply Reply → (Lock → Prop) → (D → D) → Int → D → Prop
  | .pure _, _, _, _, _ => True
  | .throw, _, _, _, _ => True
  | .commit next, own, pending, now, db =>
    ∀ now' db', now ≤ now' → Evolves G (fun l ↦ ¬ own l) db db' →
      Ordered next (fun _ ↦ False) id now' (pending db')
  | .stmt locks write next, own, pending, now, db =>
    ∀ now' db' supply, now ≤ now' → Evolves G (fun l ↦ ¬ own l) db db' →
      Asks rank Held own db' (locks ⟨now', supply⟩ (pending db')) ∧
        Ordered (next ⟨now', supply⟩ (pending db'))
          (fun l ↦ own l ∨ l ∈ locks ⟨now', supply⟩ (pending db'))
          (fun d ↦ write ⟨now', supply⟩ (pending db') (pending d)) now' db'

end Order

variable {G : Call → (Lock → Prop) → D → D → Prop} {rank : Lock → Nat}
variable {Held : D → (Lock → Prop) → Lock → Prop}

variable (rank) in
/-- The locks of the statement have rising ranks from `lo` up to but without `hi`. -/
def Stmt.Rises {β : Type} (s : Stmt D Lock Supply β) (lo hi : Nat) : Prop :=
  ∀ env db, (s.locks env db).Pairwise (fun l l' ↦ rank l < rank l') ∧
    ∀ l ∈ s.locks env db, lo ≤ rank l ∧ rank l < hi

/-- A statement may take no locks. -/
theorem Asks.nil {own : Lock → Prop} {db : D} : Asks rank Held own db [] :=
  ⟨List.Pairwise.nil, by simp, by simp⟩

/-- A lock that the process owns already is out of reach of the others. -/
theorem Unshared.of_own {own : Lock → Prop} {db : D} {l : Lock} (hl : own l) :
    Unshared Held own db l :=
  fun _ hdisjoint hl' _ ↦ hdisjoint l hl' hl

namespace Ordered

/-- Order survives the passing of time and the commits of others. -/
theorem evolve {program : Tx D Lock Supply Reply} {own : Lock → Prop} {pending : D → D}
    {now now' : Int} {db db' : D} (h : Ordered G rank Held program own pending now db)
    (ht : now ≤ now') (he : Evolves G (fun l ↦ ¬ own l) db db') :
    Ordered G rank Held program own pending now' db' := by
  cases program with
  | pure r => exact h
  | throw => exact h
  | commit next => exact fun t d ht' he' ↦ h t d (Int.le_trans ht ht') (he.trans he')
  | stmt locks write next =>
    exact fun t d supply ht' he' ↦ h t d supply (Int.le_trans ht ht') (he.trans he')

/-- A statement and its continuation. -/
theorem query_bind {β : Type} {s : Stmt D Lock Supply β} {f : β → Tx D Lock Supply Reply}
    {own : Lock → Prop} {pending : D → D} {now : Int} {db : D}
    (hasks : ∀ now' db' supply, Evolves G (fun l ↦ ¬ own l) db db' →
      Asks rank Held own db' (s.locks ⟨now', supply⟩ (pending db')))
    (h : ∀ now' db' supply, Evolves G (fun l ↦ ¬ own l) db db' →
      ∀ b, s.result ⟨now', supply⟩ (pending db') = some b →
        Ordered G rank Held (f b) (fun l ↦ own l ∨ l ∈ s.locks ⟨now', supply⟩ (pending db'))
          (fun d ↦ s.write ⟨now', supply⟩ (pending db') (pending d)) now' db') :
    Ordered G rank Held (Tx.query s >>= f) own pending now db := by
  rw [Tx.query_bind]
  intro now' db' supply _ he
  refine ⟨hasks now' db' supply he, ?_⟩
  dsimp only
  cases hr : s.result ⟨now', supply⟩ (pending db') with
  | none => exact trivial
  | some b => exact h now' db' supply he b hr

/-- A reading statement takes no locks. -/
theorem read_bind {β : Type} {s : Stmt D Lock Supply β} (hs : s.Reads)
    {f : β → Tx D Lock Supply Reply} {own : Lock → Prop} {pending : D → D} {now : Int} {db : D}
    (h : ∀ now' db' supply, Evolves G (fun l ↦ ¬ own l) db db' →
      ∀ b, s.result ⟨now', supply⟩ (pending db') = some b →
        Ordered G rank Held (f b) own pending now' db') :
    Ordered G rank Held (Tx.query s >>= f) own pending now db := by
  refine query_bind (fun now' db' supply _ ↦ ?_) (fun now' db' supply he b hb ↦ ?_)
  · rw [hs.locks]
    exact Asks.nil
  · simp only [hs.locks, hs.write, List.not_mem_nil, or_false, id]
    exact h now' db' supply he b hb

/-- A statement whose locks are above all that the process owns. -/
theorem rises_bind {β : Type} {s : Stmt D Lock Supply β} {lo hi : Nat} (hs : s.Rises rank lo hi)
    {f : β → Tx D Lock Supply Reply} {own : Lock → Prop} {pending : D → D} {now : Int} {db : D}
    (hown : ∀ o, own o → rank o < lo) (hle : lo ≤ hi)
    (hheld : ∀ now' db' supply, Evolves G (fun l ↦ ¬ own l) db db' →
      ∀ l ∈ s.locks ⟨now', supply⟩ (pending db'), Held db' own l)
    (h : ∀ now' db' supply, Evolves G (fun l ↦ ¬ own l) db db' →
      (∀ o, own o ∨ o ∈ s.locks ⟨now', supply⟩ (pending db') → rank o < hi) →
      ∀ b, s.result ⟨now', supply⟩ (pending db') = some b →
        Ordered G rank Held (f b) (fun l ↦ own l ∨ l ∈ s.locks ⟨now', supply⟩ (pending db'))
          (fun d ↦ s.write ⟨now', supply⟩ (pending db') (pending d)) now' db') :
    Ordered G rank Held (Tx.query s >>= f) own pending now db := by
  refine query_bind (fun now' db' supply he ↦ ?_) (fun now' db' supply he b hb ↦ ?_)
  · obtain ⟨hrising, hbounds⟩ := hs ⟨now', supply⟩ (pending db')
    exact ⟨hrising, fun l hl ↦ .inl fun o ho ↦ Nat.lt_of_lt_of_le (hown o ho) (hbounds l hl).1,
      hheld now' db' supply he⟩
  · refine h now' db' supply he (fun o ho ↦ ?_) b hb
    rcases ho with ho | ho
    · exact Nat.lt_of_lt_of_le (hown o ho) hle
    · exact ((hs ⟨now', supply⟩ (pending db')).2 o ho).2

/-- A statement whose locks are out of reach of the other processes. -/
theorem unshared_bind {β : Type} {s : Stmt D Lock Supply β} {l : Lock}
    (hs : ∀ env db, s.locks env db = [l]) {f : β → Tx D Lock Supply Reply} {own : Lock → Prop}
    {pending : D → D} {now : Int} {db : D} {hi : Nat} (hown : ∀ o, own o → rank o < hi)
    (hl : rank l < hi)
    (hunshared : ∀ db', Evolves G (fun l ↦ ¬ own l) db db' →
      Unshared Held own db' l ∧ Held db' own l)
    (h : ∀ now' db' supply, Evolves G (fun l ↦ ¬ own l) db db' →
      (∀ o, own o ∨ o ∈ s.locks ⟨now', supply⟩ (pending db') → rank o < hi) →
      ∀ b, s.result ⟨now', supply⟩ (pending db') = some b →
        Ordered G rank Held (f b) (fun l ↦ own l ∨ l ∈ s.locks ⟨now', supply⟩ (pending db'))
          (fun d ↦ s.write ⟨now', supply⟩ (pending db') (pending d)) now' db') :
    Ordered G rank Held (Tx.query s >>= f) own pending now db := by
  refine query_bind (fun now' db' supply he ↦ ?_) (fun now' db' supply he b hb ↦ ?_)
  · obtain ⟨hout, hheld⟩ := hunshared db' he
    rw [hs]
    refine ⟨List.pairwise_singleton _ _, fun l' hl' ↦ ?_, fun l' hl' ↦ ?_⟩
    · exact List.mem_singleton.mp hl' ▸ .inr hout
    · exact List.mem_singleton.mp hl' ▸ hheld
  · refine h now' db' supply he (fun o ho ↦ ?_) b hb
    rcases ho with ho | ho
    · exact hown o ho
    · rw [hs, List.mem_singleton] at ho
      exact ho ▸ hl

end Ordered

/-! ### No cycle -/

variable (G rank Held) in
/-- What holds in every reachable state when all programs take their locks in order. -/
structure Orderly (s : State D Lock Supply Call Reply) : Prop where
  /-- Running processes go on in order. -/
  running : ∀ i call born program pending,
    s.session i = some ⟨call, born, .running program pending⟩ →
      Ordered G rank Held program (fun l ↦ s.owner l = some i) pending s.clock s.db
  /-- Every lock is owned as `Held` says. -/
  held : ∀ i l, s.owner l = some i → Held s.db (fun l ↦ s.owner l = some i) l

variable {s s' : State D Lock Supply Call Reply}

namespace Waits

/-- The rank of the lock that the process waits at. -/
def height (rank : Lock → Nat) (w : Waits s) (i : Nat) : Nat :=
  (w.point i).elim 0 (fun p ↦ rank p.2)

/-- What a process that waits has asked for. -/
private theorem asks (h : Orderly G rank Held s) {i : Nat} {held : List Lock} {l : Lock}
    (hw : WaitsAt s i held l) : ∃ rest,
      Asks rank Held (fun l ↦ s.owner l = some i) s.db (held ++ l :: rest) := by
  obtain ⟨supply, rest, hneeded, -⟩ := hw
  refine ⟨rest, hneeded ▸ ?_⟩
  simp only [State.needed]
  split
  · next call born locks write next pending hi =>
    exact (h.running i call born _ _ hi s.clock s.db supply (Int.le_refl _) (Evolves.refl _)).1
  · exact Asks.nil

/-- The locks that a process has are not owned by others. -/
private theorem Has.disjoint {w : Waits s} {i j : Nat} (hne : i ≠ j) {l : Lock}
    (h : w.Has j l) : s.owner l ≠ some i := by
  rcases h with hown | ⟨held, l', hpoint, hl⟩
  · rw [hown]
    exact fun he ↦ hne (Option.some.inj he).symm
  · obtain ⟨-, -, -, hfree⟩ := w.waits j held l' hpoint
    rcases hfree l hl with hf | hf
    · simp [hf]
    · rw [hf]
      exact fun he ↦ hne (Option.some.inj he).symm

/-- Every lock that a process has is held as `Held` says. -/
private theorem Has.held (hmono : ∀ db own own' l, (∀ o, own o → own' o) → Held db own l →
      Held db own' l) (h : Orderly G rank Held s) {w : Waits s} {j : Nat} {l : Lock}
    (hl : w.Has j l) : Held s.db (w.Has j) l := by
  refine hmono s.db (fun l ↦ s.owner l = some j) _ l (fun _ ↦ Or.inl) ?_
  rcases hl with hown | ⟨held, l', hpoint, hmem⟩
  · exact h.held j l hown
  · obtain ⟨rest, hasks⟩ := asks h (w.waits j held l' hpoint)
    exact hasks.held l (List.mem_append_left _ hmem)

/-- Along an edge to a process that waits in turn, the rank of the awaited lock rises. -/
private theorem height_lt (hmono : ∀ db own own' l, (∀ o, own o → own' o) → Held db own l →
      Held db own' l) (h : Orderly G rank Held s) {w : Waits s} {i j k : Nat} (hij : w.For i j)
    (hjk : w.For j k) : w.height rank i < w.height rank j := by
  obtain ⟨-, heldI, l, hi, hhas⟩ := hij
  obtain ⟨hne, held, l', hj, hhas'⟩ := hjk
  simp only [height, hi, hj, Option.elim_some]
  obtain ⟨rest, hasks⟩ := asks h (w.waits j held l' hj)
  rcases hhas with hown | ⟨held', l'', hj', hmem⟩
  · rcases hasks.above l' (by simp) with habove | hunshared
    · exact habove l hown
    · -- process `k` has the lock, so others can have it
      exact absurd (hhas'.held hmono h)
        (hunshared (w.Has k) (fun o ho ↦ ho.disjoint hne) hhas')
  · rw [hj] at hj'
    cases hj'
    exact (List.pairwise_append.mp hasks.rising).2.2 l hmem l' (by simp)

/-- Where all processes take their locks in order, no processes wait for one another in a
circle. -/
theorem acyclic (hmono : ∀ db own own' l, (∀ o, own o → own' o) → Held db own l →
      Held db own' l) (h : Orderly G rank Held s) (w : Waits s) (i : Nat) :
    ¬ Relation.TransGen w.For i i := by
  have rises : ∀ j k, Relation.TransGen w.For i j → w.For j k →
      w.height rank i < w.height rank j := by
    intro j k hij hjk
    induction hij generalizing k with
    | single hij => exact height_lt hmono h hij hjk
    | tail _ hstep ih => exact Nat.lt_trans (ih _ hstep) (height_lt hmono h hstep hjk)
  intro hcycle
  obtain ⟨j, hij, -⟩ := Relation.TransGen.head'_iff.mp hcycle
  exact Nat.lt_irrefl _ (rises i j hcycle hij)

end Waits

namespace Orderly

variable {begins : Call → D → Option (Tx D Lock Supply Reply)}
variable {Post : Call → D → Outcome Reply → List (D × D) → Prop} {db₀ : D}

/-- Nothing has happened yet. -/
theorem initial (now : Int) :
    Orderly G rank Held (State.initial db₀ now : State D Lock Supply Call Reply) where
  running := by intro i call born program pending h; simp [State.initial] at h
  held := by intro i l h; simp [State.initial] at h

/-- One process moves on: it touches no lock of another process, and its commit, if it makes one,
is of the allowed kind. -/
private theorem replace (hG : LockMonotone G)
    (hstable : ∀ db db' own l, Evolves G (fun l ↦ ¬ own l) db db' → Held db own l →
      Held db' own l)
    (h : Orderly G rank Held s) {i : Nat} {x : Session D Lock Supply Call Reply}
    (hsession : s'.session = fun j ↦ if j = i then some x else s.session j)
    (hclock : s'.clock = s.clock)
    (howner : ∀ j, j ≠ i → ∀ l, s'.owner l = some j ↔ s.owner l = some j)
    (hdb : Evolves G (fun l ↦ s.owner l = some i) s.db s'.db)
    (hrunning : ∀ call born program pending, x = ⟨call, born, .running program pending⟩ →
      Ordered G rank Held program (fun l ↦ s'.owner l = some i) pending s'.clock s'.db)
    (hheld : ∀ l, s'.owner l = some i → Held s'.db (fun l ↦ s'.owner l = some i) l) :
    Orderly G rank Held s' := by
  have hown : ∀ j, j ≠ i → (fun l ↦ s'.owner l = some j) = fun l ↦ s.owner l = some j :=
    fun j hj ↦ funext fun l ↦ propext (howner j hj l)
  -- what process `i` commits, it commits beside the locks of every other process
  have hother : ∀ j, j ≠ i → Evolves G (fun l ↦ ¬ s.owner l = some j) s.db s'.db := by
    refine fun j hj ↦ hdb.mono hG fun l hl hl' ↦ ?_
    rw [hl] at hl'
    exact hj (Option.some.inj hl').symm
  constructor
  case running =>
    intro j call born program pending hj
    by_cases he : j = i
    · subst he
      simp only [hsession, if_true, Option.some.injEq] at hj
      exact hrunning call born program pending hj
    · rw [hown j he, hclock]
      exact (h.running j call born program pending (by simpa [hsession, he] using hj)).evolve
        (Int.le_refl _) (hother j he)
  case held =>
    intro j l hl
    by_cases he : j = i
    · subst he
      exact hheld l hl
    · rw [hown j he]
      exact hstable s.db s'.db _ l (hother j he) (h.held j l ((howner j he l).mp hl))

section Run

variable [DecidableEq Lock] (hG : LockMonotone G)
variable (hmono : ∀ db own own' l, (∀ o, own o → own' o) → Held db own l → Held db own' l)
variable (hstable : ∀ db db' own l, Evolves G (fun l ↦ ¬ own l) db db' → Held db own l →
  Held db' own l)
variable (hsafe : ∀ call db program now, Evolves G (fun _ ↦ True) db₀ db →
  begins call db = some program →
  Safe G call (Post call db) program (fun _ ↦ False) id [] now db)
variable (hordered : ∀ call db program now, Evolves G (fun _ ↦ True) db₀ db →
  begins call db = some program → Ordered G rank Held program (fun _ ↦ False) id now db)

include hG hmono hstable hordered

/-- One step keeps the order, provided every call begins in order. -/
theorem step (hs : Sound begins G Post db₀ s) (h : Orderly G rank Held s)
    {a : Action Supply Call} (ha : Relational.step begins s a = some s') :
    Orderly G rank Held s' := by
  cases step_kind ha with
  | @start i call program free hb =>
    have hnone : ∀ l, s.owner l ≠ some i := by
      intro l hl
      obtain ⟨_, _, _, _, hi⟩ := hs.owners l i hl
      rw [free] at hi
      cases hi
    refine replace hG hstable h rfl rfl (fun _ _ _ ↦ Iff.rfl) (Evolves.refl _) ?_ ?_
    · rintro _ _ _ _ ⟨⟩
      have hown : (fun l ↦ s.owner l = some i) = fun _ ↦ False :=
        funext fun l ↦ eq_false (hnone l)
      change Ordered G rank Held program (fun l ↦ s.owner l = some i) id s.clock s.db
      rw [hown]
      exact hordered call s.db program s.clock hs.evolved hb
    · exact fun l hl ↦ absurd hl (hnone l)
  | @stmt i supply call born locks write next pending hi free =>
    obtain ⟨hasks, hnext⟩ :=
      h.running i call born _ _ hi s.clock s.db supply (Int.le_refl _) (Evolves.refl _)
    have hown : (fun l ↦
        (s.acquire i (locks ⟨s.clock, supply⟩ (pending s.db))).owner l = some i) =
        fun l ↦ s.owner l = some i ∨ l ∈ locks ⟨s.clock, supply⟩ (pending s.db) :=
      funext fun l ↦ propext (owner_acquire_self s i _ l)
    refine replace hG hstable h rfl rfl (fun j hj ↦ owner_acquire s hj free) (Evolves.refl _) ?_ ?_
    · rintro _ _ _ _ ⟨⟩
      change Ordered G rank Held _ (fun l ↦ (s.acquire i _).owner l = some i) _ _ _
      rw [hown]
      exact hnext
    · intro l hl
      change Held s.db (fun l ↦ (s.acquire i _).owner l = some i) l
      rw [hown]
      refine hmono s.db (fun l ↦ s.owner l = some i) _ l (fun _ ↦ Or.inl) ?_
      rcases (owner_acquire_self s i _ l).mp hl with hold | hnew
      · exact h.held i l hold
      · exact hasks.held l hnew
  | @commit i supply call born next pending hi =>
    have hnext := h.running i call born _ _ hi s.clock s.db (Int.le_refl _) (Evolves.refl _)
    refine replace hG hstable h rfl rfl (fun j hj ↦ owner_release s hj)
      (Evolves.of_reflGen (hs.commit hi)) ?_ ?_
    · rintro _ _ _ _ ⟨⟩
      have hown : (fun l ↦ (s.release i).owner l = some i) = fun _ ↦ False :=
        funext fun l ↦ eq_false (owner_release_self s i l)
      change Ordered G rank Held next (fun l ↦ (s.release i).owner l = some i) id s.clock
        (pending s.db)
      rw [hown]
      exact hnext
    · exact fun l hl ↦ absurd hl (owner_release_self s i l)
  | @done i supply call born program pending outcome hi ends =>
    refine replace hG hstable h rfl rfl (fun j hj ↦ owner_release s hj) (Evolves.refl _) ?_ ?_
    · rintro _ _ _ _ ⟨⟩
    · exact fun l hl ↦ absurd hl (owner_release_self s i l)
  | @fail i call born program pending hi =>
    refine replace hG hstable h rfl rfl (fun j hj ↦ owner_release s hj) (Evolves.refl _) ?_ ?_
    · rintro _ _ _ _ ⟨⟩
    · exact fun l hl ↦ absurd hl (owner_release_self s i l)
  | tick ht =>
    refine ⟨fun i call born program pending hi ↦ ?_, h.held⟩
    exact (h.running i call born program pending hi).evolve ht (Evolves.refl _)

include hsafe

/-- Every run keeps the order. -/
theorem runs (hs : Sound begins G Post db₀ s) (h : Orderly G rank Held s)
    (hr : Runs begins s s') : Orderly G rank Held s' := by
  induction hr with
  | refl => exact h
  | @tail t t' hrun hstep ih =>
    obtain ⟨a, ha⟩ := hstep
    exact ih.step hG hmono hstable hordered (hs.runs hG hsafe hrun) ha

end Run

end Orderly

end Relational
