import Banking.Refinement.System

/-!
# What the answer of a call says

From the answer of an ended `create` call to the committed database: a 201 stands for one commit
that inserted the row of the answer, and no two calls get a 201 for one `transactionId`.
-/

namespace Banking

open Relational (Table)

variable {d : Deployment} {accounts : Table Account.id} {now : Js.Date} {s : SystemState}
variable {input : CreateTransactionInput} {request : Request} {born : Database}
variable {data : TransactionResponse} {i j : Nat}

/-- The row behind a call that returned 201. -/
def passed (s : SystemState) (i : Nat) : Option Transaction :=
  match s.session i with
  | some ⟨.create _ _, _, .done (.returned (.transaction (.success 201 data)))⟩ =>
    s.db.transactions.find? data.transactionId
  | _ => none

/-- An existing transaction is answered with 200, 409 or 422. -/
theorem answerExisting_ne_201 (t : Transaction) : answerExisting input t ≠ .success 201 data := by
  unfold answerExisting
  split
  · simp
  · split <;> simp

/-- A repeated request for a blocked transaction is answered with 422. -/
theorem answerExisting_blocked {t : Transaction} (hsame : isSameRequest input t)
    (hstatus : t.status = .BLOCKED) :
    answerExisting input t = .failure 422 "Invalid transaction" := by
  rw [answerExisting, if_neg (not_not_intro hsame), if_pos hstatus]

/-- A repeated request for a transaction that is not blocked is answered with 200. -/
theorem answerExisting_live {t : Transaction} (hsame : isSameRequest input t)
    (hstatus : t.status ≠ .BLOCKED) :
    answerExisting input t = .success 200 (toTransactionResponse t t.authorizedAt) := by
  rw [answerExisting, if_neg (not_not_intro hsame), if_neg hstatus]

/-- What a call that returned 201 has committed. -/
structure Passed (born b a : Database) (input : CreateTransactionInput)
    (data : TransactionResponse) (row : Transaction) (d : Deployment) : Prop where
  later : Evolves d (fun _ ↦ True) born b
  fresh : b.transactions.find? input.transactionId = none
  inserted : ∃ id authorizedAt createdAt, row = newTransaction input id authorizedAt createdAt
  found : a.transactions.find? input.transactionId = some row
  completed : ∃ e, a.outboxEvents.find? e.id = some e ∧ e.eventType = "TransactionCompleted" ∧
    e.transactionId = input.transactionId
  answer : data = toTransactionResponse row none

/-- The row behind a 201 is what was asked for. -/
theorem Passed.requested {b a : Database} {row : Transaction}
    (h : Passed born b a input data row d) : Requested input row := by
  obtain ⟨id, authorizedAt, createdAt, rfl⟩ := h.inserted
  exact ⟨rfl, rfl, rfl, rfl⟩

private theorem CreateEnds.passed {hist : List (Database × Database)}
    (h : CreateEnds d input request born
      (.returned (.transaction (.success 201 data))) hist) :
    ∃ b a row, hist = [(b, a)] ∧ Passed born b a input data row d := by
  generalize hr : (Relational.Outcome.returned (Reply.transaction (.success 201 data))) = outcome
    at h
  cases h with
  | completed later fresh inserted found sent event =>
    cases hr
    exact ⟨_, _, _, rfl, later, fresh, inserted, found, ⟨_, sent, event⟩, rfl⟩
  | @existing _ _ t =>
    simp only [Relational.Outcome.returned.injEq, Reply.transaction.injEq] at hr
    exact absurd hr.symm (answerExisting_ne_201 t)
  | refused _ _ _ hrefused =>
    obtain ⟨code, message, rfl, -⟩ := refusal_eq_some hrefused
    cases hr
  | threw => cases hr
  | blocked => cases hr
  | unauthenticated => cases hr
  | missing => cases hr
  | underfunded => cases hr

/-- A call that returned 201 is behind one logged commit. -/
theorem commit_of_passed (h : Runs d (initial accounts now) s)
    (hi : s.session i =
      some ⟨.create input request, born, .done (.returned (.transaction (.success 201 data)))⟩) :
    ∃ c ∈ s.log, c.session = i ∧ ∃ row, Passed born c.before c.after input data row d := by
  have hends := ((sound h).done i _ _ _ hi).resolve_left (by simp)
  obtain ⟨b, a, row, hhist, hpassed⟩ := CreateEnds.passed hends
  have hmem : (b, a) ∈ s.commitsOf i := by simp [hhist]
  obtain ⟨c, hc, hpair⟩ := List.mem_map.mp hmem
  obtain ⟨hlog, hsession⟩ := List.mem_filter.mp hc
  cases hpair
  exact ⟨c, hlog, by simpa using hsession, row, hpassed⟩

/-- The row behind a 201 is the one that its commit inserted, but for the status. -/
theorem passed_of_answer (h : Runs d (initial accounts now) s)
    (hi : s.session i =
      some ⟨.create input request, born, .done (.returned (.transaction (.success 201 data)))⟩) :
    ∃ c ∈ s.log, c.session = i ∧ ∃ row status, Passed born c.before c.after input data row d ∧
      passed s i = some { row with status } := by
  obtain ⟨c, hc, hsession, row, hpassed⟩ := commit_of_passed h hi
  have hlater : Evolves d (fun _ ↦ True) c.after s.db := ((sound h).commits c hc).2.2.2
  obtain ⟨status, hrow, -⟩ := hlater.transaction hpassed.found
  refine ⟨c, hc, hsession, row, status, hpassed, ?_⟩
  have htid : data.transactionId = input.transactionId := by
    rw [hpassed.answer, hpassed.requested.transactionId]
    rfl
  simp only [passed, hi, htid]
  exact hrow

/-- A call with a passed row returned 201. -/
theorem answer_of_passed {t : Transaction} (ht : passed s i = some t) :
    ∃ input request born data, s.session i =
      some ⟨.create input request, born, .done (.returned (.transaction (.success 201 data)))⟩ := by
  unfold passed at ht
  split at ht
  · next hi => exact ⟨_, _, _, _, hi⟩
  · cases ht

/-- A passed row is a row of the database, and its completed event is in the outbox. -/
theorem mem_of_passed (h : Runs d (initial accounts now) s) {t : Transaction}
    (ht : passed s i = some t) : t ∈ s.db.transactions.rows ∧
      ∃ e, s.db.outboxEvents.find? e.id = some e ∧ e.eventType = "TransactionCompleted" ∧
        e.transactionId = t.transactionId := by
  obtain ⟨input, request, born, data, hi⟩ := answer_of_passed ht
  obtain ⟨c, hc, -, row, status, hpassed, hrow⟩ := passed_of_answer h hi
  obtain rfl := Option.some.inj (ht.symm.trans hrow)
  have hlater : Evolves d (fun _ ↦ True) c.after s.db := ((sound h).commits c hc).2.2.2
  obtain ⟨e, he, htype, htid⟩ := hpassed.completed
  refine ⟨?_, e, hlater.outboxEvent he, htype, htid.trans hpassed.requested.transactionId⟩
  simp only [passed, hi] at ht
  exact Table.mem_of_find? ht

/-- Different calls that returned 201 have different rows. -/
theorem passed_injective (h : Runs d (initial accounts now) s) {t : Transaction}
    (hi : passed s i = some t) (hj : passed s j = some t) : i = j := by
  obtain ⟨input, request, born, data, hi'⟩ := answer_of_passed hi
  obtain ⟨input', request', born', data', hj'⟩ := answer_of_passed hj
  obtain ⟨c, hc, rfl, row, status, hpassed, hrow⟩ := passed_of_answer h hi'
  obtain ⟨c', hc', rfl, row', status', hpassed', hrow'⟩ := passed_of_answer h hj'
  have htid : input.transactionId = input'.transactionId := by
    have ht := (hi.symm.trans hrow).symm.trans (hj.symm.trans hrow')
    rw [hpassed.requested.transactionId, hpassed'.requested.transactionId]
    exact (Transaction.mk.inj (Option.some.inj ht)).2.1
  -- the commit that comes second would find the row of the first
  rcases (sound h).ordered hc hc' with rfl | he | he
  · rfl
  · obtain ⟨_, hfound, -⟩ := Evolves.transaction he hpassed.found
    rw [htid, hpassed'.fresh] at hfound
    cases hfound
  · obtain ⟨_, hfound, -⟩ := Evolves.transaction he hpassed'.found
    rw [← htid, hpassed.fresh] at hfound
    cases hfound

end Banking
