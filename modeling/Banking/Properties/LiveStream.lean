import Banking.Refinement.System
import Banking.System.Live

/-!
# Whether a live stream goes back to pending

The pending event of a request is published before the engine decides what the request is. A stream
that has been sent an outcome stays at it as long as nobody posts its transaction again.
-/

namespace Banking

/-! ### Outcomes -/

namespace EventStream

/-- The event reports a committed outcome. -/
def Chunk.isOutcome : Chunk → Bool
  | .event (some eventType) _ => eventType ∈ ["TransactionCompleted", "TransactionBlocked",
      "TransactionFinalized", "TransactionCompensated"]
  | _ => false

/-- The event says that the transaction is pending. -/
def Chunk.isPending : Chunk → Bool
  | .event (some eventType) _ => eventType = "TransactionPending"
  | _ => false

/-- No pending event after an outcome. -/
def Forward (written : List Chunk) : Prop :=
  written.Pairwise fun first later ↦ first.isOutcome = true → later.isPending = false

namespace Response

/-- The response has not gone back; without headers nothing was written. -/
structure Steady (response : Response) : Prop where
  forward : Forward response.written
  unsent : response.headersSent = false → response.written = []

variable {response : Response}

/-- Writing is steady unless it is a pending event after an outcome. -/
theorem Steady.write (hs : response.Steady) (chunk : Chunk) (hchunk : chunk.isPending = true →
      response.ended = false → ∀ c ∈ response.written, c.isOutcome = false) :
    (response.write chunk).Steady := by
  unfold Response.write
  split
  · exact hs
  · next hended =>
    refine ⟨List.pairwise_append.mpr ⟨hs.forward, List.pairwise_singleton _ _, ?_⟩, nofun⟩
    intro c hc later hlater houtcome
    rw [List.mem_singleton.mp hlater]
    refine Bool.eq_false_iff.mpr fun hpending ↦ ?_
    rw [hchunk hpending (Bool.eq_false_iff.mpr hended) c hc] at houtcome
    cases houtcome

/-- A response that ends with an exception is steady. -/
theorem Steady.fail (hs : response.Steady) : response.fail.Steady := by
  unfold Response.fail
  split
  · exact ⟨hs.forward, hs.unsent⟩
  · obtain ⟨hforward, hunsent⟩ := hs.write .error nofun
    exact ⟨hforward, hunsent⟩

/-- Setting a header writes nothing. -/
theorem Steady.setHeader (hs : response.Steady) {name value : String} {r : Response}
    (h : response.setHeader name value = some r) : r.Steady := by
  unfold Response.setHeader at h
  split at h
  · cases h
  · cases h
    exact ⟨hs.forward, hs.unsent⟩

/-- A refusal is steady. -/
theorem Steady.answer (hs : response.Steady) (statusCode : Nat) (message : String) :
    ((response.answer statusCode message).getD response.fail).Steady := by
  cases hanswer : response.answer statusCode message with
  | none => exact hs.fail
  | some answered =>
    obtain ⟨r, hr, hanswered⟩ := Option.bind_eq_some_iff.mp hanswer
    cases hanswered
    have hsteady := hs.setHeader hr
    have hstatus : Steady { r with statusCode } := ⟨hsteady.forward, hsteady.unsent⟩
    obtain ⟨hforward, hunsent⟩ := hstatus.write (.message statusCode message) nofun
    exact ⟨hforward, hunsent⟩

end Response

namespace Handler

/-- Nothing that was written reports an outcome, if the listener can still write. -/
def Unsettled (h : Handler) : Prop :=
  h.response.ended = false → h.closed = false → ∀ c ∈ h.response.written, c.isOutcome = false

variable {h : Handler}

/-- A listener is steady unless it is called with a pending event after an outcome. -/
theorem steady_listen (hs : h.response.Steady) {argument : ListenerArgument}
    (hargument : (Chunk.event argument.eventType argument.data).isPending = true → h.Unsettled) :
    (h.listen argument).response.Steady := by
  unfold Handler.listen sendEvent
  split
  · exact hs
  · next hclosed =>
    exact hs.write _ fun hpending hopen ↦
      hargument hpending hopen (Bool.eq_false_iff.mpr hclosed)

/-- The first event of a stream is the first thing it writes. -/
theorem steady_resume (hs : h.response.Steady) (result : LookupResult) :
    (h.resume result).response.Steady := by
  cases result with
  | threw => exact hs.fail
  | missing => exact hs.answer 404 "Transaction not found"
  | found transaction userId =>
    simp only [resume]
    split
    · exact hs.answer 403 "Unauthorized access"
    · cases hopen : openStream h.response with
      | none => exact hs.fail
      | some response =>
        have hnothing : response.written = [] := by
          have hunsent : h.response.headersSent = false := by
            refine Bool.eq_false_iff.mpr fun hsent ↦ ?_
            simp [openStream, Response.setHeader, hsent] at hopen
          rw [(openStream_spec hopen).2, hs.unsent hunsent]
        have hopened : response.Steady := by
          refine ⟨?_, fun _ ↦ hnothing⟩
          rw [hnothing]
          exact List.Pairwise.nil
        simp only [sendEvent]
        split
        · exact hopened
        · refine hopened.write _ fun _ _ c hc ↦ ?_
          rw [hnothing] at hc
          cases hc

end Handler

/-- A step of the streams that publishes no pending event keeps every response steady. -/
theorem steady_step {s s' : State} {a : Action} (hstep : step s a = some s')
    (hs : ∀ r h, s.handler r = some h → h.response.Steady)
    (hpublish : ∀ event, a = .publish event → event.eventType ≠ "TransactionPending") :
    ∀ r h, s'.handler r = some h → h.response.Steady := by
  refine forall_step hstep hs (fun transactionId auth ↦ ⟨List.Pairwise.nil, fun _ ↦ rfl⟩)
    (fun h name hsteady ↦ Handler.steady_listen hsteady nofun) ?_
    (fun h result hsteady _ _ ↦ Handler.steady_resume hsteady result)
    (fun h hsteady ↦ hsteady.write .heartbeat nofun) (fun h hsteady ↦ ?_)
  · intro event heq
    refine State.forall_calls (Q := fun _ ↦ True) hs (fun h hsteady _ ↦ ?_) (fun _ _ ↦ trivial)
      (fun _ _ _ _ ↦ trivial)
    exact Handler.steady_listen hsteady fun hpending ↦
      absurd (of_decide_eq_true hpending) (hpublish event heq)
  · simp only [Handler.disconnect]
    split
    · exact ⟨hsteady.forward, hsteady.unsent⟩
    · exact ⟨hsteady.forward, hsteady.unsent⟩

end EventStream

/-! ### The running system -/

namespace Live

open EventStream (Chunk Forward)

variable {d : Deployment} {accounts : Relational.Table Account.id} {now : Js.Date} {s s' : State}

/-- In no stream a pending event follows an outcome. -/
def NeverBack (s : State) : Prop :=
  ∀ r h, s.streams.handler r = some h → Forward h.response.written

/-- A valid request that is posted names no transaction with a stream that is still open and was
sent an outcome. -/
def fresh (s : State) : Action → Prop
  | .post i body request => ∀ input, request.auth ≠ none → s.system.session i = none →
    createTransactionSchema body = some input →
    ∀ r ∈ s.streams.events.listeners input.transactionId,
      ∀ h, s.streams.handler r = some h → h.Unsettled
  | _ => True

/-- The system is reachable, and every stream is steady. -/
structure Safe (d : Deployment) (accounts : Relational.Table Account.id) (now : Js.Date)
    (s : State) : Prop where
  runs : Runs d (Banking.initial accounts now) s.system
  steady : ∀ r h, s.streams.handler r = some h → h.response.Steady

/-- A step of the system keeps the streams. -/
theorem Safe.system (h : Safe d accounts now s) {a : SystemAction} {system : SystemState}
    (hstep : Relational.step (begins d) s.system a = some system) :
    Runs d (Banking.initial accounts now) system :=
  Relation.ReflTransGen.tail h.runs ⟨a, hstep⟩

/-- A step of the streams that publishes no pending event keeps the system safe. -/
theorem Safe.stream (h : Safe d accounts now s) {a : EventStream.Action}
    (hstep : s.stream a = some s')
    (hpublish : ∀ event, a = .publish event → event.eventType ≠ "TransactionPending") :
    Safe d accounts now s' := by
  obtain ⟨streams, hstreams, rfl⟩ := Option.map_eq_some_iff.mp hstep
  exact ⟨h.runs, EventStream.steady_step hstreams h.steady hpublish⟩

/-- No outbox row holds a pending event. -/
theorem delivered_ne_pending (h : Runs d (Banking.initial accounts now) s.system) {eventId : String}
    {event : TransactionEvent} (hd : delivered s.system.db eventId = some event) :
    event.eventType ≠ "TransactionPending" := by
  obtain ⟨row, hrow, -, htype, -⟩ := delivered_eq_some hd
  have hmem := (consistent h).eventType hrow
  rw [htype, (trim_eventType hmem).1]
  intro hpending
  rw [hpending] at hmem
  exact absurd hmem (by decide)

/-- What posting a request leaves. -/
theorem post_spec {i : Nat} {body : Option Json} {request : Request}
    (hstep : step d s (.post i body request) = some s') :
    s' = s ∨ ∃ input, request.auth ≠ none ∧ s.system.session i = none ∧
      createTransactionSchema body = some input ∧
      Relational.step (begins d) s.system (.start i (.create input request)) = some s'.system ∧
      s'.streams = s.streams.call (s.streams.events.calls input.transactionId
        (.event (pendingEvent input))) := by
  simp only [step] at hstep
  split at hstep
  · next auth input called hauth hpost =>
    obtain ⟨system, hsystem, rfl⟩ := Option.map_eq_some_iff.mp hstep
    obtain ⟨input', hinput, hcalled⟩ := Option.bind_eq_some_iff.mp hpost
    obtain ⟨called', hpublish, heq⟩ := Option.bind_eq_some_iff.mp hcalled
    cases heq
    obtain rfl := Js.EventEmitter.calls_of_emit hpublish
    refine .inr ⟨input, ?_, ?_, hinput, hsystem, rfl⟩
    · rw [hauth]
      exact nofun
    · simp only [Relational.step] at hsystem
      split at hsystem
      · assumption
      · cases hsystem
  · cases hstep
    exact .inl rfl

/-- A request posted in this process is safe if it is fresh. -/
theorem Safe.post (h : Safe d accounts now s) {i : Nat} {body : Option Json} {request : Request}
    (hfresh : fresh s (.post i body request))
    (hstep : step d s (.post i body request) = some s') : Safe d accounts now s' := by
  rcases post_spec hstep with rfl | ⟨input, hauth, hfree, hinput, hsystem, hstreams⟩
  · exact h
  · refine ⟨h.system hsystem, ?_⟩
    rw [hstreams]
    refine EventStream.State.forall_calls (Q := EventStream.Handler.Unsettled) h.steady
      (fun x hsteady hunsettled ↦ EventStream.Handler.steady_listen hsteady fun _ ↦ hunsettled)
      (fun x hunsettled ↦ ?_) (hfresh input hauth hfree hinput)
    -- the pending event itself reports no outcome
    have hcore := x.core_listen (.event (pendingEvent input))
    obtain ⟨added, hwritten, hadded, -⟩ := x.written_listen (.event (pendingEvent input))
    intro hopen hclosed c hc
    rw [hwritten] at hc
    rcases List.mem_append.mp hc with hc | hc
    · have hopen' : x.response.ended = false :=
        (congrArg (fun x ↦ x.response.ended) hcore).symm.trans hopen
      have hclosed' : x.closed = false := (congrArg (fun x ↦ x.closed) hcore).symm.trans hclosed
      exact hunsettled hopen' hclosed' c hc
    · rw [hadded c hc]
      rfl

/-- A fresh step keeps the system safe. -/
theorem safe_step {a : Action} (hfresh : fresh s a) (hstep : step d s a = some s')
    (h : Safe d accounts now s) : Safe d accounts now s' := by
  cases a with
  | system a =>
    obtain ⟨system, hsystem, rfl⟩ := Option.map_eq_some_iff.mp hstep
    exact ⟨h.system hsystem, h.steady⟩
  | post i body request => exact h.post hfresh hstep
  | deliver eventId =>
    obtain ⟨event, hevent, hstep⟩ := Option.bind_eq_some_iff.mp hstep
    refine h.stream hstep fun published heq ↦ ?_
    cases heq
    exact delivered_ne_pending h.runs hevent
  | flagged event =>
    simp only [step] at hstep
    split at hstep
    · next htype =>
      refine h.stream hstep fun published heq ↦ ?_
      cases heq
      intro hpending
      exact absurd (htype.symm.trans hpending) (by decide)
    · cases hstep
  | stream a =>
    simp only [step] at hstep
    split at hstep
    · cases hstep
    · next hpublish =>
      refine h.stream hstep fun published heq ↦ ?_
      rw [heq] at hpublish
      exact absurd rfl hpublish

/-- A request for a transaction whose stream was sent an outcome sends it a pending event. -/
theorem not_neverBack_of_not_fresh {a : Action} (hfresh : ¬ fresh s a) :
    ∃ s', step d s a = some s' ∧ ¬ NeverBack s' := by
  cases a with
  | post i body request =>
    simp only [fresh, not_forall] at hfresh
    obtain ⟨input, hauth, hfree, hinput, r, hmem, x, hx, hsettled⟩ := hfresh
    simp only [EventStream.Handler.Unsettled, not_forall] at hsettled
    obtain ⟨hopen, hclosed, c, hc, houtcome⟩ := hsettled
    obtain ⟨auth, hauth⟩ := Option.ne_none_iff_exists'.mp hauth
    have hpublish : publishRealtimeEvent (pendingEvent input) s.streams.events =
        some (s.streams.events.calls input.transactionId (.event (pendingEvent input))) := by
      refine if_neg ?_
      rintro ⟨-, hnobody⟩
      have hnone : s.streams.events.listeners input.transactionId = [] := hnobody
      rw [hnone] at hmem
      cases hmem
    have hstart : ∃ system,
        Relational.step (begins d) s.system (.start i (.create input request)) = some system := by
      simp [Relational.step, hfree, begins]
    obtain ⟨system, hsystem⟩ := hstart
    refine ⟨⟨system, s.streams.call (s.streams.events.calls input.transactionId
      (.event (pendingEvent input)))⟩, ?_, ?_⟩
    · simp only [step, hauth, postTransaction_of_valid hinput, hpublish, Option.map_some, hsystem]
    · intro hnever
      obtain ⟨x', added, hx', -, hwritten, hadded, hnonempty⟩ :=
        EventStream.State.written_calls input.transactionId (.event (pendingEvent input)) hx
      obtain ⟨pending, hpending⟩ := List.exists_mem_of_ne_nil added (hnonempty hmem hopen hclosed)
      have hforward := hnever r x' hx'
      rw [hwritten] at hforward
      have hnot := (List.pairwise_append.mp hforward).2.2 c hc pending hpending
        (Bool.of_not_eq_false houtcome)
      rw [hadded pending hpending] at hnot
      cases hnot
  | system a => exact absurd trivial hfresh
  | deliver eventId => exact absurd trivial hfresh
  | flagged event => exact absurd trivial hfresh
  | stream a => exact absurd trivial hfresh

/-- The system starts without streams. -/
theorem safe_initial : Safe d accounts now (initial accounts now) where
  runs := Relation.ReflTransGen.refl
  steady := by
    intro r h hr
    cases hr

/-- In a run no stream goes back to pending if and only if no valid request is posted for a
transaction with a stream that is still open and was sent an outcome. -/
theorem neverBack_iff (d : Deployment) (accounts : Relational.Table Account.id) (now : Js.Date)
    (actions : List Action) :
    Relational.Throughout (step d) NeverBack (initial accounts now) actions ↔
      Relational.Meets (step d) fresh (initial accounts now) actions :=
  Relational.throughout_iff_meets (I := Safe d accounts now)
    (fun _ hsafe r h hr ↦ (hsafe.steady r h hr).forward)
    (fun _ _ _ ↦ safe_step) (fun _ _ hfresh _ ↦ not_neverBack_of_not_fresh hfresh) safe_initial
    actions

/-! ### A run -/

namespace Sample

/-- The body of the debit of `Banking.Sample`. -/
def body : Json :=
  .obj [("transactionId", .str "txn-1"), ("accountId", .str Banking.Sample.accountId),
    ("type", .str "DEBIT"), ("amountMinor", .str "10"), ("deviceFingerprint", .str "device-1")]

/-- The debit is posted and completes, its owner opens the stream, and posts the debit again. -/
def retry : List Action :=
  [.post 0 (some body) Banking.Sample.request] ++
    (Banking.Sample.execute 0 13 0).map .system ++
    [.stream (.request 0 "txn-1" ⟨"user-1", .CUSTOMER⟩),
      .stream (.lookup 0 (.found ⟨Banking.Sample.uuid 0, "txn-1", Banking.Sample.accountId, .DEBIT,
        10, .COMPLETED, some 1000, 1000⟩ "user-1")),
      .post 1 (some body) Banking.Sample.request]

end Sample

/-- The retried debit sends the stream a pending event after the snapshot of the completed
transaction. -/
theorem retry_goes_back : ∃ s,
    Relational.execute (step Banking.Sample.deployment)
        (initial Banking.Sample.accounts 1000) Sample.retry = some s ∧ ¬ NeverBack s := by
  have hrun : ((Relational.execute (step Banking.Sample.deployment)
      (initial Banking.Sample.accounts 1000) Sample.retry).bind fun s ↦ s.streams.handler 0).map
      (fun h ↦ h.response.written.map fun c ↦ (c.isOutcome, c.isPending)) =
        some [(true, false), (false, true)] := by
    decide +kernel
  obtain ⟨h, hh, hwritten⟩ := Option.map_eq_some_iff.mp hrun
  obtain ⟨s, hs, hhandler⟩ := Option.bind_eq_some_iff.mp hh
  refine ⟨s, hs, fun hnever ↦ ?_⟩
  have hforward := hnever 0 h hhandler
  have hpairs : (h.response.written.map fun c ↦ (c.isOutcome, c.isPending)).Pairwise
      (fun first later ↦ first.1 = true → later.2 = false) := List.pairwise_map.mpr hforward
  rw [hwritten] at hpairs
  simp at hpairs

end Live

end Banking
