import Banking.Relational.Interleaving

/-!
# Rely-guarantee reasoning for interleaved transactions

Library `Relational`. `G call own` relates the committed databases around a commit that a
process running `call` may make while it owns the locks `own`. `Safe` says of a program that
all its commits are of that kind however the commits of processes holding other locks
interleave with its statements, and that it ends as `Post` allows. If every program is safe,
every reachable database is reached by steps of `G` alone (`Sound`): the statement-level
system refines the system whose steps are single commits.
-/

namespace Relational

variable {D Lock Supply Call Reply : Type}

/-- Owning more locks never forbids a commit. -/
def LockMonotone (G : Call → (Lock → Prop) → D → D → Prop) : Prop :=
  ∀ call own own' b a, (∀ l, own l → own' l) → G call own b a → G call own' b a

/-- What commits of processes that own only locks in `own` can make of a database. -/
def Evolves (G : Call → (Lock → Prop) → D → D → Prop) (own : Lock → Prop) : D → D → Prop :=
  Relation.ReflTransGen (fun b a ↦ ∃ call, G call own b a)

/-- Every commit `program` can still make is a step of `G`, whatever processes that own none of
its locks commit between its statements, and it ends as `Post` allows. The arguments after the
program are the locks it owns, its pending writes, its earlier commits, and the clock and the
committed database it is known to have reached. -/
def Safe (G : Call → (Lock → Prop) → D → D → Prop) (call : Call)
    (Post : Outcome Reply → List (D × D) → Prop) :
    Tx D Lock Supply Reply → (Lock → Prop) → (D → D) → List (D × D) → Int → D → Prop
  | .pure r, _, _, hist, _, _ => Post (.returned r) hist
  | .throw, _, _, hist, _, _ => Post .threw hist
  | .commit next, own, pending, hist, now, db =>
    ∀ now' db', now ≤ now' → Evolves G (fun l ↦ ¬ own l) db db' →
      Relation.ReflGen (G call own) db' (pending db') ∧
        Safe G call Post next (fun _ ↦ False) id (hist ++ [(db', pending db')]) now' (pending db')
  | .stmt locks write next, own, pending, hist, now, db =>
    ∀ now' db' supply, now ≤ now' → Evolves G (fun l ↦ ¬ own l) db db' →
      Safe G call Post (next ⟨now', supply⟩ (pending db'))
        (fun l ↦ own l ∨ l ∈ locks ⟨now', supply⟩ (pending db'))
        (fun d ↦ write ⟨now', supply⟩ (pending db') (pending d)) hist now' db'

variable {G : Call → (Lock → Prop) → D → D → Prop}

namespace Evolves

/-- Nothing need happen. -/
theorem refl {own : Lock → Prop} (db : D) : Evolves G own db db := Relation.ReflTransGen.refl

/-- Evolutions compose. -/
theorem trans {own : Lock → Prop} {a b c : D} (h : Evolves G own a b) (k : Evolves G own b c) :
    Evolves G own a c := Relation.ReflTransGen.trans h k

/-- A single step is an evolution. -/
theorem single {own : Lock → Prop} {call : Call} {b a : D} (h : G call own b a) :
    Evolves G own b a := Relation.ReflTransGen.single ⟨call, h⟩

/-- A commit that is a step or changes nothing is an evolution. -/
theorem of_reflGen {own : Lock → Prop} {call : Call} {b a : D}
    (h : Relation.ReflGen (G call own) b a) : Evolves G own b a := by
  cases h with
  | refl => exact refl b
  | single h => exact single h

/-- More locks allow more. -/
theorem mono (hG : LockMonotone G)
    {own own' : Lock → Prop} (ho : ∀ l, own l → own' l) {b a : D} (h : Evolves G own b a) :
    Evolves G own' b a :=
  Relation.ReflTransGen.mono (fun _ _ ⟨call, hc⟩ ↦ ⟨call, hG call own own' _ _ ho hc⟩) _ _ h

/-- What every step preserves, every evolution preserves. -/
theorem invariant {own : Lock → Prop} {P : D → Prop}
    (hstep : ∀ call b a, G call own b a → P b → P a) {b a : D} (h : Evolves G own b a)
    (hb : P b) : P a := by
  induction h with
  | refl => exact hb
  | tail _ hs ih =>
    obtain ⟨call, hc⟩ := hs
    exact hstep call _ _ hc ih

end Evolves

namespace Safe

variable {call : Call} {Post : Outcome Reply → List (D × D) → Prop}

/-- Safety survives the passing of time and the commits of others. -/
theorem evolve {program : Tx D Lock Supply Reply} {own : Lock → Prop} {pending : D → D}
    {hist : List (D × D)} {now now' : Int} {db db' : D}
    (h : Safe G call Post program own pending hist now db) (ht : now ≤ now')
    (he : Evolves G (fun l ↦ ¬ own l) db db') :
    Safe G call Post program own pending hist now' db' := by
  cases program with
  | pure r => exact h
  | throw => exact h
  | commit next => exact fun t d ht' he' ↦ h t d (Int.le_trans ht ht') (he.trans he')
  | stmt locks write next =>
    exact fun t d supply ht' he' ↦ h t d supply (Int.le_trans ht ht') (he.trans he')

/-- A statement and its continuation: at whatever database it runs, the continuation is safe at
the statement's result, or the process ends there with an exception. -/
theorem query_bind {β : Type} {s : Stmt D Lock Supply β} {f : β → Tx D Lock Supply Reply}
    {own : Lock → Prop} {pending : D → D} {hist : List (D × D)} {now : Int} {db : D}
    (h : ∀ now' db' supply, now ≤ now' → Evolves G (fun l ↦ ¬ own l) db db' →
      ∀ b, s.result ⟨now', supply⟩ (pending db') = some b →
        Safe G call Post (f b) (fun l ↦ own l ∨ l ∈ s.locks ⟨now', supply⟩ (pending db'))
          (fun d ↦ s.write ⟨now', supply⟩ (pending db') (pending d)) hist now' db')
    (hthrow : ∀ now' db' supply, now ≤ now' → Evolves G (fun l ↦ ¬ own l) db db' →
      s.result ⟨now', supply⟩ (pending db') = none → Post .threw hist) :
    Safe G call Post (Tx.query s >>= f) own pending hist now db := by
  rw [Tx.query_bind]
  intro now' db' supply ht he
  dsimp only
  cases hr : s.result ⟨now', supply⟩ (pending db') with
  | none => exact hthrow now' db' supply ht he hr
  | some b => exact h now' db' supply ht he b hr

/-- A reading statement leaves the locks and the pending writes as they are. -/
theorem read_bind {β : Type} {s : Stmt D Lock Supply β} (hs : s.Reads)
    {f : β → Tx D Lock Supply Reply} {own : Lock → Prop} {pending : D → D} {hist : List (D × D)}
    {now : Int} {db : D}
    (h : ∀ now' db' supply, now ≤ now' → Evolves G (fun l ↦ ¬ own l) db db' →
      ∀ b, s.result ⟨now', supply⟩ (pending db') = some b →
        Safe G call Post (f b) own pending hist now' db') :
    Safe G call Post (Tx.query s >>= f) own pending hist now db := by
  refine query_bind (fun now' db' supply ht he b hb ↦ ?_) (fun now' db' supply _ _ hnone ↦ ?_)
  · simp only [hs.locks, hs.write, List.not_mem_nil, or_false, id]
    exact h now' db' supply ht he b hb
  · have := hs.total ⟨now', supply⟩ (pending db')
    simp [hnone] at this

/-- A transaction that ends with its commit. -/
theorem commit_pure {r : Reply} {own : Lock → Prop} {pending : D → D} {hist : List (D × D)}
    {now : Int} {db : D}
    (h : ∀ db', Evolves G (fun l ↦ ¬ own l) db db' →
      Relation.ReflGen (G call own) db' (pending db') ∧
        Post (.returned r) (hist ++ [(db', pending db')])) :
    Safe G call Post (.commit (.pure r) : Tx D Lock Supply Reply) own pending hist now db :=
  fun _ db' _ he ↦ h db' he

/-- A transaction that has written nothing may end at any time. -/
theorem commit_unchanged {r : Reply} {own : Lock → Prop} {hist : List (D × D)} {now : Int}
    {db : D}
    (h : ∀ db', Evolves G (fun l ↦ ¬ own l) db db' → Post (.returned r) (hist ++ [(db', db')])) :
    Safe G call Post (.commit (.pure r) : Tx D Lock Supply Reply) own id hist now db :=
  commit_pure fun db' he ↦ ⟨Relation.ReflGen.refl, h db' he⟩

end Safe

/-! ### Soundness -/

private theorem commitsOf_append (s s' : State D Lock Supply Call Reply) (c : Commit D Call)
    (h : s'.log = s.log ++ [c]) (j : Nat) :
    s'.commitsOf j = s.commitsOf j ++ if c.session = j then [(c.before, c.after)] else [] := by
  by_cases hc : c.session = j <;> simp [State.commitsOf, h, hc]

/-- Releasing the locks of one process leaves those of the others. -/
theorem owner_release (s : State D Lock Supply Call Reply) {i j : Nat} (h : j ≠ i)
    (l : Lock) : (s.release i).owner l = some j ↔ s.owner l = some j := by
  simp only [State.release]
  split
  · next hl => simp [hl, Ne.symm h]
  · rfl

/-- Releasing leaves no lock. -/
theorem owner_release_self (s : State D Lock Supply Call Reply) (i : Nat) (l : Lock) :
    (s.release i).owner l ≠ some i := by
  simp only [State.release]
  split <;> simp_all

/-- A process owns what it acquires and what it owned before. -/
theorem owner_acquire_self [DecidableEq Lock] (s : State D Lock Supply Call Reply)
    (i : Nat) (locks : List Lock) (l : Lock) :
    (s.acquire i locks).owner l = some i ↔ s.owner l = some i ∨ l ∈ locks := by
  simp only [State.acquire]
  split <;> simp_all

/-- Acquiring free locks leaves those of the others. -/
theorem owner_acquire [DecidableEq Lock] (s : State D Lock Supply Call Reply)
    {i j : Nat} (h : j ≠ i) {locks : List Lock}
    (free : ∀ l ∈ locks, s.owner l = none ∨ s.owner l = some i) (l : Lock) :
    (s.acquire i locks).owner l = some j ↔ s.owner l = some j := by
  simp only [State.acquire]
  split
  · next hl => rcases free l hl with hf | hf <;> simp [hf, Ne.symm h]
  · rfl

variable (begins : Call → D → Option (Tx D Lock Supply Reply))
variable (G : Call → (Lock → Prop) → D → D → Prop)
variable (Post : Call → D → Outcome Reply → List (D × D) → Prop)

/-- What holds in every reachable state when all programs are safe. -/
structure Sound (db₀ : D) (s : State D Lock Supply Call Reply) : Prop where
  /-- The committed database is reached by commits of the allowed kind. -/
  evolved : Evolves G (fun _ ↦ True) db₀ s.db
  /-- Only running processes own locks. -/
  owners : ∀ l i, s.owner l = some i →
    ∃ call born program pending, s.session i = some ⟨call, born, .running program pending⟩
  /-- Running processes stay safe. -/
  running : ∀ i call born program pending,
    s.session i = some ⟨call, born, .running program pending⟩ →
      Safe G call (Post call born) program (fun l ↦ s.owner l = some i) pending
        (s.commitsOf i) s.clock s.db
  /-- Ended processes ended as allowed. -/
  done : ∀ i call born outcome, s.session i = some ⟨call, born, .done outcome⟩ →
    outcome = .failed ∨ Post call born outcome (s.commitsOf i)
  /-- Every process started from a database on the way to the current one. -/
  born : ∀ i x, s.session i = some x →
    Evolves G (fun _ ↦ True) db₀ x.born ∧ Evolves G (fun _ ↦ True) x.born s.db ∧
      (begins x.call x.born).isSome
  /-- Every commit is a step of the allowed kind, made by its process after its start. -/
  commits : ∀ c ∈ s.log,
    (∃ x, s.session c.session = some x ∧ x.call = c.call ∧
      Evolves G (fun _ ↦ True) x.born c.before) ∧
    Relation.ReflGen (G c.call (fun _ ↦ True)) c.before c.after ∧
    Evolves G (fun _ ↦ True) db₀ c.before ∧ Evolves G (fun _ ↦ True) c.after s.db
  /-- Commits follow one another. -/
  chain : s.log.Pairwise (fun c c' ↦ Evolves G (fun _ ↦ True) c.after c'.before)

variable {G} {Post} {begins}

namespace Sound

variable {db₀ : D} {s s' : State D Lock Supply Call Reply}

/-- Nothing has happened yet. -/
theorem initial (now : Int) : Sound begins G Post db₀ (State.initial db₀ now) where
  evolved := Evolves.refl db₀
  owners := by intro l i h; simp [State.initial] at h
  running := by intro i call born program pending h; simp [State.initial] at h
  done := by intro i call born outcome h; simp [State.initial] at h
  born := by intro i x h; simp [State.initial] at h
  commits := by intro c h; simp [State.initial] at h
  chain := List.Pairwise.nil

/-- Of two commits one is the other or came before it. -/
theorem ordered (h : Sound begins G Post db₀ s) {c c' : Commit D Call} (hc : c ∈ s.log)
    (hc' : c' ∈ s.log) : c = c' ∨ Evolves G (fun _ ↦ True) c.after c'.before ∨
      Evolves G (fun _ ↦ True) c'.after c.before := by
  refine List.Pairwise.forall_of_forall_of_flip (R := fun x y : Commit D Call ↦ x = y ∨
    Evolves G (fun _ ↦ True) x.after y.before ∨ Evolves G (fun _ ↦ True) y.after x.before)
    (fun _ _ ↦ .inl rfl) ?_ ?_ hc hc'
  · exact h.chain.imp fun he ↦ .inr (.inl he)
  · exact h.chain.imp fun he ↦ .inr (.inr he)

/-- A process that has not started has committed nothing. -/
theorem commitsOf_eq_nil (h : Sound begins G Post db₀ s) {i : Nat} (hi : s.session i = none) :
    s.commitsOf i = [] := by
  simp only [State.commitsOf, List.map_eq_nil_iff, List.filter_eq_nil_iff]
  intro c hc he
  obtain ⟨⟨x, hx, -⟩, -⟩ := h.commits c hc
  simp only [decide_eq_true_eq] at he
  rw [he, hi] at hx
  cases hx

/-- One process moves on: it keeps its call and start, touches no lock of another process, and
leaves the database as it is or makes one commit of the allowed kind. -/
private theorem replace
    (hG : LockMonotone G)
    (h : Sound begins G Post db₀ s) {i : Nat} {call : Call} {born : D}
    {program : Tx D Lock Supply Reply} {pending : D → D} {phase : Phase D Lock Supply Reply}
    (hi : s.session i = some ⟨call, born, .running program pending⟩)
    (hsession : s'.session = fun j ↦ if j = i then some ⟨call, born, phase⟩ else s.session j)
    (hclock : s'.clock = s.clock)
    (howner : ∀ j, j ≠ i → ∀ l, s'.owner l = some j ↔ s.owner l = some j)
    (hlog : s'.log = s.log ∧ s'.db = s.db ∨ s'.log = s.log ++ [⟨i, call, s.db, s'.db⟩] ∧
      Relation.ReflGen (G call (fun l ↦ s.owner l = some i)) s.db s'.db)
    (hrunning : ∀ program pending, phase = .running program pending →
      Safe G call (Post call born) program (fun l ↦ s'.owner l = some i) pending
        (s'.commitsOf i) s'.clock s'.db)
    (hdone : ∀ outcome, phase = .done outcome → (∀ l, s'.owner l ≠ some i) ∧
      (outcome = .failed ∨ Post call born outcome (s'.commitsOf i))) :
    Sound begins G Post db₀ s' := by
  have hstep : Evolves G (fun l ↦ s.owner l = some i) s.db s'.db := by
    rcases hlog with ⟨-, hd⟩ | ⟨-, hg⟩
    · rw [hd]
      exact Evolves.refl _
    · exact Evolves.of_reflGen hg
  have hall : Evolves G (fun _ ↦ True) s.db s'.db := hstep.mono hG fun _ _ ↦ trivial
  have hcommits : ∀ j, j ≠ i → s'.commitsOf j = s.commitsOf j := by
    intro j hj
    rcases hlog with ⟨hl, -⟩ | ⟨hl, -⟩
    · simp [State.commitsOf, hl]
    · simp [commitsOf_append s s' _ hl j, Ne.symm hj]
  have hsame : ∀ j x, s.session j = some x →
      ∃ x', s'.session j = some x' ∧ x'.call = x.call ∧ x'.born = x.born := by
    intro j x hx
    by_cases he : j = i
    · rw [he, hi] at hx
      cases hx
      exact ⟨⟨call, born, phase⟩, by simp [hsession, he], rfl, rfl⟩
    · exact ⟨x, by simpa [hsession, he] using hx, rfl, rfl⟩
  constructor
  case evolved => exact h.evolved.trans hall
  case owners =>
    intro l j hl
    by_cases he : j = i
    · subst he
      cases phase with
      | running program' pending' => exact ⟨call, born, program', pending', by simp [hsession]⟩
      | done outcome => exact absurd hl ((hdone outcome rfl).1 l)
    · simpa [hsession, he] using h.owners l j ((howner j he l).mp hl)
  case running =>
    intro j call' born' program' pending' hj
    by_cases he : j = i
    · subst he
      simp only [hsession, if_true, Option.some.injEq, Session.mk.injEq] at hj
      obtain ⟨rfl, rfl, rfl⟩ := hj
      exact hrunning program' pending' rfl
    · have hown : (fun l ↦ s'.owner l = some j) = fun l ↦ s.owner l = some j :=
        funext fun l ↦ propext (howner j he l)
      have hsafe := h.running j call' born' program' pending' (by simpa [hsession, he] using hj)
      rw [hown, hcommits j he, hclock]
      -- the commit of process `i` owns only locks that process `j` does not own
      refine hsafe.evolve (Int.le_refl _) (hstep.mono hG fun l hl hl' ↦ ?_)
      rw [hl] at hl'
      exact he (Option.some.inj hl').symm
  case done =>
    intro j call' born' outcome hj
    by_cases he : j = i
    · subst he
      simp only [hsession, if_true, Option.some.injEq, Session.mk.injEq] at hj
      obtain ⟨rfl, rfl, rfl⟩ := hj
      exact (hdone outcome rfl).2
    · rw [hcommits j he]
      exact h.done j call' born' outcome (by simpa [hsession, he] using hj)
  case born =>
    intro j x hj
    by_cases he : j = i
    · subst he
      simp only [hsession, if_true, Option.some.injEq] at hj
      subst hj
      obtain ⟨h₀, h₁, h₂⟩ := h.born j _ hi
      exact ⟨h₀, h₁.trans hall, h₂⟩
    · obtain ⟨h₀, h₁, h₂⟩ := h.born j x (by simpa [hsession, he] using hj)
      exact ⟨h₀, h₁.trans hall, h₂⟩
  case commits =>
    have hold : ∀ c ∈ s.log, (∃ x, s'.session c.session = some x ∧ x.call = c.call ∧
        Evolves G (fun _ ↦ True) x.born c.before) ∧
        Relation.ReflGen (G c.call (fun _ ↦ True)) c.before c.after ∧
        Evolves G (fun _ ↦ True) db₀ c.before ∧ Evolves G (fun _ ↦ True) c.after s'.db := by
      intro c hc
      obtain ⟨⟨x, hx, hcall, hborn⟩, hg, h₀, h₁⟩ := h.commits c hc
      obtain ⟨x', hx', hc', hb'⟩ := hsame _ x hx
      exact ⟨⟨x', hx', hc'.trans hcall, hb' ▸ hborn⟩, hg, h₀, h₁.trans hall⟩
    intro c hc
    rcases hlog with ⟨hl, -⟩ | ⟨hl, hg⟩
    · exact hold c (hl ▸ hc)
    · rw [hl] at hc
      rcases List.mem_append.mp hc with hc | hc
      · exact hold c hc
      · obtain rfl : c = ⟨i, call, s.db, s'.db⟩ := by simpa using hc
        refine ⟨⟨⟨call, born, phase⟩, by simp [hsession], rfl, (h.born i _ hi).2.1⟩, ?_,
          h.evolved, Evolves.refl _⟩
        exact Relation.ReflGen.mono (fun _ _ ↦ hG call _ _ _ _ fun _ _ ↦ trivial) _ _ hg
  case chain =>
    rcases hlog with ⟨hl, -⟩ | ⟨hl, -⟩
    · exact hl ▸ h.chain
    · rw [hl]
      refine List.pairwise_append.mpr ⟨h.chain, by simp, ?_⟩
      intro c hc c' hc'
      obtain rfl : c' = ⟨i, call, s.db, s'.db⟩ := by simpa using hc'
      exact (h.commits c hc).2.2.2

/-- One step keeps the invariant, provided every call is safe from where it starts. -/
theorem step [DecidableEq Lock]
    (hG : LockMonotone G)
    (hsafe : ∀ call db program now, Evolves G (fun _ ↦ True) db₀ db →
      begins call db = some program →
      Safe G call (Post call db) program (fun _ ↦ False) id [] now db)
    (h : Sound begins G Post db₀ s) {a : Action Supply Call}
    (ha : Relational.step begins s a = some s') : Sound begins G Post db₀ s' := by
  cases step_kind ha with
  | @start i call program free hb =>
    have hne : ∀ j x, s.session j = some x → j ≠ i := by
      rintro j x hx rfl
      rw [free] at hx
      cases hx
    refine ⟨h.evolved, ?_, ?_, ?_, ?_, ?_, h.chain⟩
    · intro l j hl
      obtain ⟨call', born', program', pending', hj⟩ := h.owners l j hl
      exact ⟨call', born', program', pending', by simpa [State.setSession, hne j _ hj] using hj⟩
    · intro j call' born' program' pending' hj
      by_cases he : j = i
      · subst he
        simp only [State.setSession, if_true, Option.some.injEq, Session.mk.injEq,
          Phase.running.injEq] at hj
        obtain ⟨rfl, rfl, rfl, rfl⟩ := hj
        have hown : (fun l ↦ s.owner l = some j) = fun _ ↦ False := by
          funext l
          refine eq_false fun hl ↦ ?_
          obtain ⟨_, _, _, _, hj⟩ := h.owners l j hl
          rw [free] at hj
          cases hj
        change Safe G call _ program (fun l ↦ s.owner l = some j) id (s.commitsOf j) s.clock s.db
        rw [hown, h.commitsOf_eq_nil free]
        exact hsafe call s.db program s.clock h.evolved hb
      · exact h.running j call' born' program' pending' (by simpa [State.setSession, he] using hj)
    · intro j call' born' outcome hj
      by_cases he : j = i
      · simp [State.setSession, he] at hj
      · exact h.done j call' born' outcome (by simpa [State.setSession, he] using hj)
    · intro j x hj
      by_cases he : j = i
      · simp only [State.setSession, he, if_true, Option.some.injEq] at hj
        subst hj
        exact ⟨h.evolved, Evolves.refl _, by simp [hb]⟩
      · exact h.born j x (by simpa [State.setSession, he] using hj)
    · intro c hc
      obtain ⟨⟨x, hx, hcall, hborn⟩, hrest⟩ := h.commits c hc
      exact ⟨⟨x, by simpa [State.setSession, hne _ _ hx] using hx, hcall, hborn⟩, hrest⟩
  | @stmt i supply call born locks write next pending hi free =>
    refine replace hG h hi rfl rfl (fun j hj ↦ owner_acquire s hj free) (.inl ⟨rfl, rfl⟩) ?_ ?_
    · rintro _ _ ⟨⟩
      have hown : (fun l ↦
          (s.acquire i (locks ⟨s.clock, supply⟩ (pending s.db))).owner l = some i) =
          fun l ↦ s.owner l = some i ∨ l ∈ locks ⟨s.clock, supply⟩ (pending s.db) :=
        funext fun l ↦ propext (owner_acquire_self s i _ l)
      change Safe G call _ _ (fun l ↦ (s.acquire i _).owner l = some i) _ _ _ _
      rw [hown]
      exact h.running i call born _ _ hi s.clock s.db supply (Int.le_refl _) (Evolves.refl _)
    · rintro _ ⟨⟩
  | @commit i supply call born next pending hi =>
    obtain ⟨hg, hnext⟩ := h.running i call born _ _ hi s.clock s.db (Int.le_refl _)
      (Evolves.refl _)
    refine replace hG h hi rfl rfl (fun j hj ↦ owner_release s hj) (.inr ⟨rfl, hg⟩) ?_ ?_
    · rintro _ _ ⟨⟩
      have hown : (fun l ↦ (s.release i).owner l = some i) = fun _ ↦ False :=
        funext fun l ↦ eq_false (owner_release_self s i l)
      have hhist : (s.publish i call born pending next).commitsOf i =
          s.commitsOf i ++ [(s.db, pending s.db)] := by
        rw [commitsOf_append s _ ⟨i, call, s.db, pending s.db⟩ rfl i, if_pos rfl]
      change Safe G call _ next (fun l ↦ (s.release i).owner l = some i) id _ s.clock (pending s.db)
      rw [hown, hhist]
      exact hnext
    · rintro _ ⟨⟩
  | @done i supply call born program pending outcome hi ends =>
    refine replace hG h hi rfl rfl (fun j hj ↦ owner_release s hj) (.inl ⟨rfl, rfl⟩) ?_ ?_
    · rintro _ _ ⟨⟩
    · rintro _ ⟨⟩
      refine ⟨owner_release_self s i, .inr ?_⟩
      have hprogram := h.running i call born program pending hi
      rcases ends with ⟨rfl, rfl⟩ | ⟨r, rfl, rfl⟩
      · exact hprogram
      · exact hprogram
  | @fail i call born program pending hi =>
    refine replace hG h hi rfl rfl (fun j hj ↦ owner_release s hj) (.inl ⟨rfl, rfl⟩) ?_ ?_
    · rintro _ _ ⟨⟩
    · rintro _ ⟨⟩
      exact ⟨owner_release_self s i, .inl rfl⟩
  | tick ht =>
    refine ⟨h.evolved, h.owners, ?_, h.done, h.born, h.commits, h.chain⟩
    intro i call born program pending hi
    exact (h.running i call born program pending hi).evolve ht (Evolves.refl _)

/-- A process at its commit publishes a step of the allowed kind, under the locks it owns. -/
theorem commit (h : Sound begins G Post db₀ s) {i : Nat} {call : Call} {born : D}
    {next : Tx D Lock Supply Reply} {pending : D → D}
    (hi : s.session i = some ⟨call, born, .running (.commit next) pending⟩) :
    Relation.ReflGen (G call (fun l ↦ s.owner l = some i)) s.db (pending s.db) :=
  (h.running i call born _ _ hi s.clock s.db (Int.le_refl _) (Evolves.refl _)).1

/-- Every run keeps the invariant. -/
theorem runs [DecidableEq Lock] (hG : LockMonotone G)
    (hsafe : ∀ call db program now, Evolves G (fun _ ↦ True) db₀ db →
      begins call db = some program →
      Safe G call (Post call db) program (fun _ ↦ False) id [] now db)
    (h : Sound begins G Post db₀ s) (hs : Runs begins s s') : Sound begins G Post db₀ s' := by
  induction hs with
  | refl => exact h
  | tail _ hstep ih =>
    obtain ⟨a, ha⟩ := hstep
    exact ih.step hG hsafe ha

end Sound

/-! ### Two points of one run -/

section Later

variable [DecidableEq Lock] {db₀ : D} {s s' : State D Lock Supply Call Reply}

/-- A step leaves the database as it is, or is the commit of a process and logs it. -/
theorem db_step {a : Action Supply Call} (ha : step begins s a = some s') :
    (s'.db = s.db ∧ s'.log = s.log) ∨ ∃ i supply call born next pending, a = .exec i supply ∧
      s.session i = some ⟨call, born, .running (.commit next) pending⟩ ∧
      s'.log = s.log ++ [⟨i, call, s.db, s'.db⟩] := by
  cases step_kind ha with
  | start free hb => exact .inl ⟨rfl, rfl⟩
  | stmt hi free => exact .inl ⟨rfl, rfl⟩
  | commit hi => exact .inr ⟨_, _, _, _, _, _, rfl, hi, rfl⟩
  | done hi ends => exact .inl ⟨rfl, rfl⟩
  | fail hi => exact .inl ⟨rfl, rfl⟩
  | tick ht => exact .inl ⟨rfl, rfl⟩

/-- A step keeps the call and the start of every process that has started. -/
theorem session_step {a : Action Supply Call} (ha : step begins s a = some s') {i : Nat}
    {x : Session D Lock Supply Call Reply} (hx : s.session i = some x) :
    ∃ x', s'.session i = some x' ∧ x'.call = x.call ∧ x'.born = x.born := by
  have key : ∀ j call born phase phase', s.session j = some ⟨call, born, phase⟩ →
      ∃ x', (if i = j then some ⟨call, born, phase'⟩ else s.session i) = some x' ∧
        x'.call = x.call ∧ x'.born = x.born := by
    intro j call born phase phase' hj
    by_cases he : i = j
    · rw [he, hj] at hx
      cases hx
      exact ⟨⟨call, born, phase'⟩, by simp [he], rfl, rfl⟩
    · exact ⟨x, by simpa [he] using hx, rfl, rfl⟩
  cases step_kind ha with
  | @start j call program free hb =>
    have he : i ≠ j := by
      rintro rfl
      rw [free] at hx
      cases hx
    exact ⟨x, by simpa [State.setSession, he] using hx, rfl, rfl⟩
  | stmt hi free => exact key _ _ _ _ _ hi
  | commit hi => exact key _ _ _ _ _ hi
  | done hi ends => exact key _ _ _ _ _ hi
  | fail hi => exact key _ _ _ _ _ hi
  | tick ht => exact ⟨x, hx, rfl, rfl⟩

/-- A step starts the process of its action only. -/
theorem call_step {a : Action Supply Call} (ha : step begins s a = some s') {i : Nat}
    {x : Session D Lock Supply Call Reply} (hx : s'.session i = some x) :
    (∃ x₀, s.session i = some x₀ ∧ x₀.call = x.call) ∨ a = .start i x.call := by
  have key : ∀ j call born phase phase', s.session j = some ⟨call, born, phase⟩ →
      (if i = j then some ⟨call, born, phase'⟩ else s.session i) = some x →
      ∃ x₀, s.session i = some x₀ ∧ x₀.call = x.call := by
    intro j call born phase phase' hj hi
    split at hi
    · next he =>
      cases hi
      exact ⟨⟨call, born, phase⟩, he ▸ hj, rfl⟩
    · exact ⟨x, hi, rfl⟩
  cases step_kind ha with
  | @start j call program free hb =>
    simp only [State.setSession] at hx
    split at hx
    · next he =>
      cases hx
      exact .inr (by rw [he])
    · exact .inl ⟨x, hx, rfl⟩
  | stmt hi free => exact .inl (key _ _ _ _ _ hi hx)
  | commit hi => exact .inl (key _ _ _ _ _ hi hx)
  | done hi ends => exact .inl (key _ _ _ _ _ hi hx)
  | fail hi => exact .inl (key _ _ _ _ _ hi hx)
  | tick ht => exact .inl ⟨x, hx, rfl⟩

/-- What a step finds in the log it leaves there. -/
theorem mem_log_step {a : Action Supply Call} (ha : step begins s a = some s')
    {c : Commit D Call} (hc : c ∈ s.log) : c ∈ s'.log := by
  rcases db_step ha with ⟨-, hlog⟩ | ⟨i, -, call, -, -, -, -, -, hlog⟩
  · exact hlog ▸ hc
  · exact hlog ▸ List.mem_append_left _ hc

/-- A process that a step starts is born at the database of that step. -/
theorem born_step {a : Action Supply Call} (ha : step begins s a = some s') {i : Nat}
    {x : Session D Lock Supply Call Reply} (hi : s.session i = none)
    (hx : s'.session i = some x) : x.born = s.db ∧ s'.db = s.db := by
  have key : ∀ j y phase', s.session j = some y →
      (if i = j then some phase' else s.session i) = some x → False := by
    intro j y phase' hj hif
    split at hif
    · next he =>
      rw [← he, hi] at hj
      cases hj
    · rw [hi] at hif
      cases hif
  cases step_kind ha with
  | @start j call program free hb =>
    refine ⟨?_, rfl⟩
    simp only [State.setSession] at hx
    split at hx
    · cases hx
      rfl
    · rw [hi] at hx
      cases hx
  | stmt hj free => exact (key _ _ _ hj hx).elim
  | commit hj => exact (key _ _ _ hj hx).elim
  | done hj ends => exact (key _ _ _ hj hx).elim
  | fail hj => exact (key _ _ _ hj hx).elim
  | tick ht =>
    change s.session i = some x at hx
    rw [hi] at hx
    cases hx

/-- What holds at the end of a run and not at its start was brought about by a logged commit. -/
theorem exists_commit {P : D → Prop} (hs : Runs begins s s') (hbefore : ¬ P s.db)
    (hafter : P s'.db) : ∃ c ∈ s'.log, ¬ P c.before ∧ P c.after := by
  induction hs with
  | refl => exact absurd hafter hbefore
  | @tail t t' hrun hstep ih =>
    obtain ⟨a, ha⟩ := hstep
    rcases db_step ha with ⟨hd, hl⟩ | ⟨i, -, call, -, -, -, -, -, hl⟩
    · rw [hd] at hafter
      rw [hl]
      exact ih hafter
    · by_cases ht : P t.db
      · obtain ⟨c, hc, hc'⟩ := ih ht
        exact ⟨c, by simp [hl, hc], hc'⟩
      · exact ⟨⟨i, call, t.db, t'.db⟩, by simp [hl], ht, hafter⟩

/-- Along a run the database evolves by commits of the allowed kind. -/
theorem Sound.evolves (hG : LockMonotone G)
    (hsafe : ∀ call db program now, Evolves G (fun _ ↦ True) db₀ db →
      begins call db = some program →
      Safe G call (Post call db) program (fun _ ↦ False) id [] now db)
    (h : Sound begins G Post db₀ s) (hs : Runs begins s s') :
    Evolves G (fun _ ↦ True) s.db s'.db := by
  induction hs with
  | refl => exact Evolves.refl _
  | @tail t t' hrun hstep ih =>
    obtain ⟨a, ha⟩ := hstep
    have ht' := (h.runs hG hsafe hrun).step hG hsafe ha
    rcases db_step ha with ⟨hd, -⟩ | ⟨i, -, call, -, -, -, -, -, hl⟩
    · rw [hd]
      exact ih
    · have hg := (ht'.commits ⟨i, call, t.db, t'.db⟩ (by rw [hl]; simp)).2.1
      exact ih.trans (Evolves.of_reflGen hg)

/-- A process that started after `s` was born at a database later than that of `s`. -/
theorem Sound.evolves_born (hG : LockMonotone G)
    (hsafe : ∀ call db program now, Evolves G (fun _ ↦ True) db₀ db →
      begins call db = some program →
      Safe G call (Post call db) program (fun _ ↦ False) id [] now db)
    (h : Sound begins G Post db₀ s) (hs : Runs begins s s') {i : Nat}
    {x : Session D Lock Supply Call Reply} (hi : s.session i = none)
    (hx : s'.session i = some x) : Evolves G (fun _ ↦ True) s.db x.born := by
  induction hs generalizing x with
  | refl =>
    rw [hi] at hx
    cases hx
  | @tail t t' hrun hstep ih =>
    obtain ⟨a, ha⟩ := hstep
    cases ht : t.session i with
    | none =>
      rw [(born_step ha ht hx).1]
      exact h.evolves hG hsafe hrun
    | some y =>
      obtain ⟨x', hx', -, hb⟩ := session_step ha ht
      rw [hx] at hx'
      cases hx'
      rw [hb]
      exact ih ht

end Later

/-! ### Without a condition on commits -/

private theorem safe_trivial (call : Call) (program : Tx D Lock Supply Reply) :
    ∀ own pending hist now db, Safe (fun _ _ _ _ ↦ True : Call → (Lock → Prop) → D → D → Prop) call
      (fun _ _ ↦ True) program own pending hist now db := by
  induction program with
  | pure r => exact fun _ _ _ _ _ ↦ trivial
  | throw => exact fun _ _ _ _ _ ↦ trivial
  | stmt locks write next ih => exact fun _ _ _ _ _ _ _ _ _ _ ↦ ih _ _ _ _ _ _ _
  | commit next ih => exact fun _ _ _ _ _ _ _ _ _ ↦ ⟨.single trivial, ih _ _ _ _ _⟩

/-- Whatever its programs commit, every run is sound for the condition that always holds. -/
theorem sound_trivial [DecidableEq Lock] {now : Int}
    (h : Runs begins (State.initial db₀ now) s) :
    Sound begins (fun _ _ _ _ ↦ True) (fun _ _ _ _ ↦ True) db₀ s :=
  (Sound.initial now).runs (fun _ _ _ _ _ _ h ↦ h)
    (fun call db program now _ _ ↦ safe_trivial call program _ _ _ now db) h

end Relational
