import Banking.Relational.Transitions
import Banking.Transactions.StreamSteps

/-!
# Who receives event data

The listener of a request is live before its ownership check. As long as nothing is published
for a transaction while a request for it awaits its lookup, event data reaches only requesters
that passed the check; an event in that gap is written to whoever asked.
-/

namespace Banking.EventStream

/-- The text holds data of an event or of a transaction. -/
def Chunk.isData : Chunk → Bool
  | .event eventType data => eventType.isSome || data.isSome
  | _ => false

/-- The lookup has found the transaction, and the requester is an admin or owns its account. -/
def Handler.Authorised (h : Handler) : Prop :=
  ∃ transaction userId, h.lookup = some (.found transaction userId) ∧
    transaction.transactionId = h.transactionId ∧
    (h.auth.role = .ADMIN ∨ h.auth.userId = userId)

instance (h : Handler) : Decidable h.Authorised :=
  match hlookup : h.lookup with
  | some (.found transaction userId) =>
    decidable_of_iff (transaction.transactionId = h.transactionId ∧
        (h.auth.role = .ADMIN ∨ h.auth.userId = userId)) <| by
      constructor
      · exact fun ⟨hid, hauth⟩ ↦ ⟨transaction, userId, hlookup, hid, hauth⟩
      · rintro ⟨t, owner, ht, hid, hauth⟩
        cases hlookup.symm.trans ht
        exact ⟨hid, hauth⟩
  | some .missing => isFalse fun ⟨_, _, ht, _⟩ ↦ nomatch hlookup.symm.trans ht
  | some .threw => isFalse fun ⟨_, _, ht, _⟩ ↦ nomatch hlookup.symm.trans ht
  | none => isFalse fun ⟨_, _, ht, _⟩ ↦ nomatch hlookup.symm.trans ht

/-- No data has reached a requester that has not passed the check. -/
structure Guarded (s : State) : Prop where
  authorised : ∀ {r h chunk}, s.handler r = some h → chunk ∈ h.response.written →
    chunk.isData = true → h.Authorised
  refused : ∀ {r h statusCode message}, s.handler r = some h →
    Chunk.message statusCode message ∈ h.response.written → statusCode = 404 ∨ statusCode = 403 →
    ∀ chunk ∈ h.response.written, chunk.isData = false

/-- The request awaits its lookup, and its client is still there. -/
def Handler.isPending (h : Handler) : Bool := h.lookup.isNone && !h.response.ended

/-- Nothing is published to a request that awaits its lookup. -/
def quiet (s : State) : Action → Bool
  | .publish event =>
    (s.events.listeners event.transactionId).all
      (fun r ↦ (s.handler r).all (fun h ↦ !h.isPending))
  | _ => true

/-! ### One request -/

namespace Handler

/-- Data only after the check; a request that fails it ends. -/
structure Safe (h : Handler) : Prop where
  data : ∀ {chunk}, chunk ∈ h.response.written → chunk.isData = true → h.Authorised
  message : ∀ {statusCode message}, Chunk.message statusCode message ∈ h.response.written →
    h.lookup ≠ none ∧ ¬ h.Authorised
  ended : h.lookup ≠ none → ¬ h.Authorised → h.response.ended = true
  closed : h.closed = true → h.response.ended = true

variable {h : Handler}

/-- Without a lookup nobody is authorised. -/
theorem not_authorised (hnone : h.lookup = none) : ¬ h.Authorised := by
  rintro ⟨t, userId, ht, -⟩
  simp [hnone] at ht

/-- A new request is safe. -/
theorem Safe.initial (transactionId : String) (auth : Auth) :
    (Handler.initial transactionId auth).Safe where
  data := fun hmem ↦ nomatch hmem
  message := fun hmem ↦ nomatch hmem
  ended := fun hsome ↦ absurd rfl hsome
  closed := fun hclosed ↦ nomatch hclosed

/-- Writing a text without data, or one with data after the check, keeps a request safe. -/
theorem Safe.write (hs : h.Safe) (chunk : Chunk)
    (hdata : chunk.isData = true → h.response.ended = false → h.Authorised)
    (hmessage : ∀ statusCode message, chunk ≠ .message statusCode message) :
    ({ h with response := h.response.write chunk } : Handler).Safe where
  data := by
    intro c hc hd
    rcases mem_write hc with hc | ⟨rfl, hended⟩
    · exact hs.data hc hd
    · exact hdata hd hended
  message := by
    intro statusCode message hc
    rcases mem_write hc with hc | ⟨hc, -⟩
    · exact hs.message hc
    · exact absurd hc.symm (hmessage statusCode message)
  ended := fun hsome hnot ↦ (ended_write _ _).trans (hs.ended hsome hnot)
  closed := fun hclosed ↦ (ended_write _ _).trans (hs.closed hclosed)

/-- A request that awaits no lookup, or whose client is gone, may be sent any event. -/
theorem Safe.listen (hs : h.Safe) {argument : ListenerArgument}
    (hquiet : argument.eventType.isSome = true → h.isPending = false) :
    (h.listen argument).Safe := by
  unfold Handler.listen sendEvent
  split
  · exact hs
  · refine hs.write _ (fun hdata hended ↦ ?_) (fun _ _ ↦ nofun)
    cases argument with
    | name n => cases hdata
    | event e =>
      have hsome : h.lookup ≠ none := by
        intro hnone
        have hpending := hquiet rfl
        simp [isPending, hnone, hended] at hpending
      by_contra hnot
      rw [hs.ended hsome hnot] at hended
      cases hended

/-- A response that is over and holds no data is safe; a refusal is written only to those who
fail the check. -/
theorem Safe.of_ended (hended : h.response.ended = true)
    (hdata : ∀ c ∈ h.response.written, c.isData = false)
    (hmessage : ∀ {statusCode message}, Chunk.message statusCode message ∈ h.response.written →
      h.lookup ≠ none ∧ ¬ h.Authorised) : h.Safe where
  data := fun hc hd ↦ by simp [hdata _ hc] at hd
  message := hmessage
  ended := fun _ _ ↦ hended
  closed := fun _ ↦ hended

/-- The result of the lookup lets only authorised requesters go on. -/
theorem Safe.resume (hs : h.Safe) (hnone : h.lookup = none) {result : LookupResult}
    (hresult : result.answers h.transactionId = true) : (h.resume result).Safe := by
  have hclean : ∀ c ∈ h.response.written, c.isData = false := fun c hc ↦
    Bool.eq_false_iff.mpr fun hd ↦ not_authorised hnone (hs.data hc hd)
  have hunanswered : ∀ statusCode message, Chunk.message statusCode message ∉ h.response.written :=
    fun statusCode message hc ↦ (hs.message hc).1 hnone
  -- the two refusals
  have hrefuse : ∀ statusCode message,
      ¬ ({ h with lookup := some result } : Handler).Authorised →
      ({ h with
        lookup := some result
        response := (h.response.answer statusCode message).getD h.response.fail } :
        Handler).Safe := by
    intro statusCode message hnot
    obtain ⟨hended, hmem⟩ := refuse_spec h.response statusCode message
    refine Safe.of_ended hended (fun c hc ↦ ?_) fun _ ↦ ⟨nofun, hnot⟩
    rcases hmem c hc with hc | rfl | rfl
    · exact hclean c hc
    · rfl
    · rfl
  -- an exception of the handler
  have hfail : ({ h with lookup := some result, response := h.response.fail } : Handler).Safe := by
    obtain ⟨hended, hmem⟩ := fail_spec h.response
    refine Safe.of_ended hended (fun c hc ↦ ?_) fun hc ↦ ?_
    · rcases hmem c hc with hc | rfl
      · exact hclean c hc
      · rfl
    · rcases hmem _ hc with hc | hc
      · exact absurd hc (hunanswered _ _)
      · cases hc
  cases result with
  | threw => exact hfail
  | missing =>
    apply hrefuse 404 "Transaction not found"
    rintro ⟨t, userId, ht, -⟩
    cases ht
  | found transaction userId =>
    unfold Handler.resume
    by_cases hforeign : isForeign h.auth userId = true
    · simp only [hforeign, if_true]
      apply hrefuse 403 "Unauthorized access"
      rintro ⟨t, owner, ht, -, hauth⟩
      cases ht
      simp only [isForeign, Bool.and_eq_true, decide_eq_true_eq] at hforeign
      exact hauth.elim hforeign.1 hforeign.2
    · simp only [hforeign, if_false, Bool.false_eq_true]
      cases hopen : openStream h.response with
      | none => exact hfail
      | some response =>
        obtain ⟨hended, hwritten⟩ := openStream_spec hopen
        have hauthorised : ({ h with
            lookup := some (.found transaction userId)
            response
            heartbeat := true } : Handler).Authorised := by
          refine ⟨transaction, userId, rfl, of_decide_eq_true hresult, ?_⟩
          by_contra hnot
          obtain ⟨hrole, huser⟩ := not_or.mp hnot
          exact hforeign (by simp [isForeign, hrole, huser])
        have hopened : ({ h with
            lookup := some (.found transaction userId)
            response
            heartbeat := true } : Handler).Safe := by
          refine ⟨fun _ _ ↦ hauthorised, fun hc ↦ ?_, fun _ hnot ↦ absurd hauthorised hnot,
            fun hclosed ↦ hended.trans (hs.closed hclosed)⟩
          exact absurd (hwritten ▸ hc) (hunanswered _ _)
        simp only [sendEvent]
        split
        · exact ⟨hopened.data, hopened.message, hopened.ended, hopened.closed⟩
        · obtain ⟨hdata, hmessage, hends, hcloses⟩ :=
            hopened.write (.event (some (initialEventType transaction.status))
              (some (snapshot transaction))) (fun _ _ ↦ hauthorised) (fun _ _ ↦ nofun)
          exact ⟨hdata, hmessage, hends, hcloses⟩

/-- A request whose client is gone is safe. -/
theorem Safe.disconnect (hs : h.Safe) : h.disconnect.Safe := by
  simp only [Handler.disconnect]
  split
  · exact ⟨hs.data, hs.message, fun _ _ ↦ rfl, fun _ ↦ rfl⟩
  · exact ⟨hs.data, hs.message, fun _ _ ↦ rfl, fun _ ↦ rfl⟩

end Handler

/-! ### All requests -/

namespace State

/-- Every request is safe. -/
def Safe (s : State) : Prop := ∀ r h, s.handler r = some h → h.Safe

variable {s : State}

/-- A listener keeps what the others await. -/
theorem isPending_listen (h : Handler) (argument : ListenerArgument) :
    (h.listen argument).isPending = h.isPending := by
  unfold Handler.listen Handler.sendEvent
  split
  · rfl
  · simp [Handler.isPending]

end State

/-! ### Steps -/

/-- A quiet step keeps every request safe. -/
theorem safe_step {s s' : State} {a : Action} (hquiet : quiet s a = true)
    (hstep : step s a = some s') (hs : s.Safe) : s'.Safe := by
  refine forall_step hstep hs Handler.Safe.initial (fun h name hsafe ↦ hsafe.listen ?_) ?_
    (fun h result hsafe hnone ↦ hsafe.resume hnone)
    (fun h hsafe ↦ hsafe.write .heartbeat ?_ ?_) (fun h hsafe ↦ hsafe.disconnect)
  · intro hsome
    cases hsome
  · rintro event rfl
    refine State.forall_calls (Q := fun h ↦ h.isPending = false) hs
      (fun h hsafe hanswered ↦ hsafe.listen fun _ ↦ hanswered)
      (fun h hanswered ↦ (State.isPending_listen h _).trans hanswered) fun r hr h hh ↦ ?_
    have hall := List.all_eq_true.mp hquiet r hr
    simpa [hh] using hall
  · intro hdata
    cases hdata
  · intro statusCode message heq
    cases heq

/-- Safe requests are guarded. -/
theorem guarded_of_safe {s : State} (hs : s.Safe) : Guarded s where
  authorised := fun hr hc hd ↦ (hs _ _ hr).data hc hd
  refused := fun hr hmessage _ _ hc ↦ Bool.eq_false_iff.mpr fun hd ↦
    ((hs _ _ hr).message hmessage).2 ((hs _ _ hr).data hc hd)

/-- An event published to a request that awaits its lookup is written before the check. -/
theorem not_guarded_of_not_quiet {s : State} {a : Action} (hquiet : ¬ quiet s a = true)
    (hs : s.Safe) : ∃ s', step s a = some s' ∧ ¬ Guarded s' := by
  cases a with
  | publish event =>
    simp only [quiet, List.all_eq_true, not_forall] at hquiet
    obtain ⟨r, hmem, hpending⟩ := hquiet
    have hemit : s.events.emit event.transactionId (ListenerArgument.event event) =
        some (s.events.calls event.transactionId (.event event)) := by
      cases hemit : s.events.emit event.transactionId (ListenerArgument.event event) with
      | none => simp [Js.EventEmitter.listeners_of_emit_eq_none hemit] at hmem
      | some called => rw [Js.EventEmitter.calls_of_emit hemit]
    cases hr : s.handler r with
    | none => simp [hr] at hpending
    | some h =>
      have hpending : h.isPending = true := by simpa [hr] using hpending
      obtain ⟨hnone, hopen⟩ := Bool.and_eq_true_iff.mp hpending
      rw [Option.isNone_iff_eq_none] at hnone
      have hopen : h.response.ended = false := by simpa using hopen
      have hclosed : h.closed = false := Bool.eq_false_iff.mpr fun hclosed ↦ by
        rw [(hs r h hr).closed hclosed] at hopen
        cases hopen
      obtain ⟨h', hr', hlookup, hwritten⟩ :=
        State.written_of_call (.event event) hmem hr hopen hclosed
      refine ⟨s.call (s.events.calls event.transactionId (.event event)),
        by simp only [step, publishRealtimeEvent, hemit], fun hguarded ↦ ?_⟩
      exact Handler.not_authorised (hlookup.trans hnone) (hguarded.authorised hr' hwritten rfl)
  | request r transactionId auth => exact absurd rfl hquiet
  | lookup r result => exact absurd rfl hquiet
  | heartbeat r => exact absurd rfl hquiet
  | disconnect r => exact absurd rfl hquiet

/-- A process without requests is safe. -/
theorem safe_initial : State.initial.Safe := by
  intro r h hr
  cases hr

/-- In a run the check guards every state if and only if nothing is ever published to a request
that awaits its lookup. -/
theorem stream_guarded_iff (actions : List Action) :
    Relational.Throughout step Guarded .initial actions ↔
      Relational.Meets step (fun s a ↦ quiet s a = true) .initial actions :=
  Relational.throughout_iff_meets (I := State.Safe) (fun _ ↦ guarded_of_safe)
    (fun _ _ _ ↦ safe_step) (fun _ _ ↦ not_guarded_of_not_quiet) safe_initial actions

/-! ### A run -/

namespace Sample

/-- A transaction of the first user. -/
def transaction : Transaction :=
  ⟨"row-1", "txn-1", "account-1", .DEBIT, 10, .COMPLETED, some 0, 0⟩

/-- Another user asks for the stream, an event arrives during the lookup, and the lookup finds
the transaction of the first user. -/
def early : List Action :=
  [.request 0 "txn-1" ⟨"user-2", .CUSTOMER⟩,
    .publish ⟨"txn-1", "TransactionCompleted", .obj [("amount", .str "10")]⟩,
    .lookup 0 (.found transaction "user-1")]

end Sample

/-- An event that arrives during the lookup is written to a user who then fails the check. -/
theorem event_reaches_foreign_user : ∃ s,
    Relational.execute step .initial Sample.early = some s ∧ ¬ Guarded s := by
  have hrun : ((Relational.execute step .initial Sample.early).bind (fun s ↦ s.handler 0)).any
      (fun h ↦ h.response.written.any Chunk.isData && !decide h.Authorised) = true := by
    decide +kernel
  obtain ⟨h, hh, hleak⟩ := Option.any_eq_true _ _ |>.mp hrun
  obtain ⟨s, hs, hhandler⟩ := Option.bind_eq_some_iff.mp hh
  obtain ⟨hdata, hforeign⟩ := Bool.and_eq_true_iff.mp hleak
  obtain ⟨chunk, hmem, hchunk⟩ := List.any_eq_true.mp hdata
  refine ⟨s, hs, fun hguarded ↦ ?_⟩
  simp [hguarded.authorised hhandler hmem hchunk] at hforeign

end Banking.EventStream
