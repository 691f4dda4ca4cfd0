import Banking.Transactions.EventStream

/-!
# Steps of the event stream

What writing, refusing and opening leave of a response, what calling listeners leaves of the
requests, and the rule that a property of every request is kept by a step when each way of
changing a request keeps it.
-/

namespace Banking.EventStream

/-! ### Responses -/

namespace Handler

/-- What a write adds. -/
theorem mem_write {response : Response} {chunk c : Chunk}
    (hc : c ∈ (response.write chunk).written) :
    c ∈ response.written ∨ c = chunk ∧ response.ended = false := by
  unfold Response.write at hc
  split at hc
  · exact .inl hc
  · next hended =>
    rcases List.mem_append.mp hc with hc | hc
    · exact .inl hc
    · exact .inr ⟨List.mem_singleton.mp hc, Bool.eq_false_iff.mpr hended⟩

/-- A write never reopens a response. -/
@[simp] theorem ended_write (response : Response) (chunk : Chunk) :
    (response.write chunk).ended = response.ended := by
  unfold Response.write
  split <;> rfl

/-- An exception ends the response and adds no data. -/
theorem fail_spec (response : Response) : response.fail.ended = true ∧
    ∀ c ∈ response.fail.written, c ∈ response.written ∨ c = .error := by
  unfold Response.fail
  split
  · exact ⟨rfl, fun c hc ↦ .inl hc⟩
  · exact ⟨rfl, fun c hc ↦ (mem_write hc).imp_right And.left⟩

/-- A refusal ends the response and adds no data. -/
theorem refuse_spec (response : Response) (statusCode : Nat) (message : String) :
    ((response.answer statusCode message).getD response.fail).ended = true ∧
      ∀ c ∈ ((response.answer statusCode message).getD response.fail).written,
        c ∈ response.written ∨ c = .error ∨ c = .message statusCode message := by
  cases hanswer : response.answer statusCode message with
  | none =>
    obtain ⟨hended, hmem⟩ := fail_spec response
    exact ⟨hended, fun c hc ↦ (hmem c hc).imp_right .inl⟩
  | some answered =>
    obtain ⟨r, hr, hs⟩ := Option.bind_eq_some_iff.mp hanswer
    unfold Response.setHeader at hr
    split at hr
    · cases hr
    · cases hr
      cases hs
      exact ⟨rfl, fun c hc ↦ (mem_write hc).imp_right fun h ↦ .inr h.1⟩

/-- Setting a header writes nothing. -/
theorem setHeader_spec {name value : String} {response r : Response}
    (h : response.setHeader name value = some r) :
    r.ended = response.ended ∧ r.written = response.written := by
  unfold Response.setHeader at h
  split at h
  · cases h
  · cases h
    exact ⟨rfl, rfl⟩

/-- Opening the stream writes nothing. -/
theorem openStream_spec {response r : Response} (h : openStream response = some r) :
    r.ended = response.ended ∧ r.written = response.written := by
  obtain ⟨r₁, h₁, h⟩ := Option.bind_eq_some_iff.mp h
  obtain ⟨r₂, h₂, h⟩ := Option.bind_eq_some_iff.mp h
  obtain ⟨r₃, h₃, h⟩ := Option.bind_eq_some_iff.mp h
  cases h
  obtain ⟨hended₁, hwritten₁⟩ := setHeader_spec h₁
  obtain ⟨hended₂, hwritten₂⟩ := setHeader_spec h₂
  obtain ⟨hended₃, hwritten₃⟩ := setHeader_spec h₃
  exact ⟨hended₃.trans (hended₂.trans hended₁), hwritten₃.trans (hwritten₂.trans hwritten₁)⟩

end Handler

/-! ### Changing a request -/

namespace State

/-- Requests change one at a time. -/
theorem handler_modify (s : State) (r : Nat) (f : Handler → Handler) (q : Nat) :
    (s.modify r f).handler q = if q = r then (s.handler q).map f else s.handler q := by
  by_cases hq : q = r
  · subst hq
    simp [modify]
  · simp [modify, hq]

end State

/-! ### What a call of listeners leaves -/

/-- A later version of a request before the next step of its handler. -/
structure Handler.Keeps (h h' : Handler) : Prop where
  transactionId : h'.transactionId = h.transactionId
  lookup : h'.lookup = h.lookup
  written : h.response.written ⊆ h'.response.written

namespace Handler

/-- The request without what was written to it. -/
def core (h : Handler) : Handler :=
  { h with response := { h.response with headersSent := false, written := [] } }

/-- A listener writes only. -/
theorem core_listen (h : Handler) (argument : ListenerArgument) :
    (h.listen argument).core = h.core := by
  unfold listen sendEvent Response.write
  split
  · rfl
  · split <;> rfl

/-- A heartbeat writes only. -/
theorem core_write (h : Handler) (chunk : Chunk) :
    ({ h with response := h.response.write chunk } : Handler).core = h.core := by
  unfold Response.write
  split <;> rfl

end Handler

/-- A listener appends its event if it can still write. -/
theorem Handler.written_listen (h : Handler) (argument : ListenerArgument) :
    ∃ added, (h.listen argument).response.written = h.response.written ++ added ∧
      (∀ c ∈ added, c = .event argument.eventType argument.data) ∧
      (h.response.ended = false → h.closed = false → added ≠ []) := by
  unfold listen sendEvent Response.write
  split
  · next hclosed =>
    refine ⟨[], (List.append_nil _).symm, nofun, fun _ hopen ↦ ?_⟩
    rw [hclosed] at hopen
    cases hopen
  · split
    · next hended =>
      refine ⟨[], (List.append_nil _).symm, nofun, fun hopen ↦ ?_⟩
      rw [hended] at hopen
      cases hopen
    · exact ⟨_, rfl, fun c hc ↦ List.mem_singleton.mp hc, fun _ _ ↦ nofun⟩

namespace State

variable {s : State} {r : Nat} {h : Handler}

/-- Calling listeners registers nobody. -/
theorem events_call (s : State) (calls : ListenerCalls) : (s.call calls).events = s.events := by
  induction calls generalizing s with
  | nil => rfl
  | cons call rest ih => exact (ih (s.modify call.1 (Handler.listen call.2))).trans rfl

/-- Calling listeners writes only. -/
theorem core_call (s : State) (calls : ListenerCalls) (q : Nat) :
    ((s.call calls).handler q).map Handler.core = (s.handler q).map Handler.core := by
  induction calls generalizing s with
  | nil => rfl
  | cons call rest ih =>
    refine (ih (s.modify call.1 (Handler.listen call.2))).trans ?_
    rw [handler_modify]
    split
    · rw [Option.map_map]
      exact Option.map_congr fun h _ ↦ h.core_listen call.2
    · rfl

/-- Called listeners append what they are called with, and whoever can still be written to gets
it. -/
theorem written_call (calls : ListenerCalls) (hr : s.handler r = some h) :
    ∃ h' added, (s.call calls).handler r = some h' ∧ h'.core = h.core ∧
      h'.response.written = h.response.written ++ added ∧
      (∀ c ∈ added, ∃ call ∈ calls, c = .event call.2.eventType call.2.data) ∧
      (r ∈ calls.map Prod.fst → h.response.ended = false → h.closed = false → added ≠ []) := by
  induction calls generalizing s h with
  | nil => exact ⟨h, [], hr, rfl, (List.append_nil _).symm, nofun, nofun⟩
  | cons call rest ih =>
    by_cases hq : r = call.1
    · have hlisten : (s.modify call.1 (Handler.listen call.2)).handler r =
          some (h.listen call.2) := by
        rw [handler_modify, if_pos hq, hr, Option.map_some]
      obtain ⟨h', added, hh', hcore, hwritten, hadded, -⟩ := ih hlisten
      obtain ⟨first, hfirst, hchunk, hnonempty⟩ := h.written_listen call.2
      refine ⟨h', first ++ added, hh', hcore.trans (h.core_listen call.2), ?_, ?_, ?_⟩
      · rw [hwritten, hfirst, List.append_assoc]
      · intro c hc
        rcases List.mem_append.mp hc with hc | hc
        · exact ⟨call, List.mem_cons_self, hchunk c hc⟩
        · obtain ⟨other, hother, hc⟩ := hadded c hc
          exact ⟨other, List.mem_cons_of_mem _ hother, hc⟩
      · intro _ hopen hclosed hnone
        exact hnonempty hopen hclosed (List.append_eq_nil_iff.mp hnone).1
    · have hother : (s.modify call.1 (Handler.listen call.2)).handler r = some h := by
        rw [handler_modify, if_neg hq, hr]
      obtain ⟨h', added, hh', hcore, hwritten, hadded, hnonempty⟩ := ih hother
      refine ⟨h', added, hh', hcore, hwritten, fun c hc ↦ ?_,
        fun hmem ↦ hnonempty ((List.mem_cons.mp hmem).resolve_left hq)⟩
      obtain ⟨other, hother, hc⟩ := hadded c hc
      exact ⟨other, List.mem_cons_of_mem _ hother, hc⟩

/-- Calling listeners keeps every request. -/
theorem keeps_call (calls : ListenerCalls) (hr : s.handler r = some h) :
    ∃ h', (s.call calls).handler r = some h' ∧ h.Keeps h' := by
  obtain ⟨h', added, hh', hcore, hwritten, -⟩ := written_call calls hr
  refine ⟨h', hh', congrArg (fun h ↦ h.transactionId) hcore, congrArg (fun h ↦ h.lookup) hcore, ?_⟩
  rw [hwritten]
  exact List.subset_append_left _ _

/-- An event appends what its listeners are called with. -/
theorem written_calls (name : String) (argument : ListenerArgument) (hr : s.handler r = some h) :
    ∃ h' added, (s.call (s.events.calls name argument)).handler r = some h' ∧ h'.core = h.core ∧
      h'.response.written = h.response.written ++ added ∧
      (∀ c ∈ added, c = .event argument.eventType argument.data) ∧
      (r ∈ s.events.listeners name → h.response.ended = false → h.closed = false →
        added ≠ []) := by
  obtain ⟨h', added, hh', hcore, hwritten, hadded, hnonempty⟩ :=
    written_call (s.events.calls name argument) hr
  refine ⟨h', added, hh', hcore, hwritten, fun c hc ↦ ?_, fun hmem ↦ hnonempty ?_⟩
  · obtain ⟨call, hcall, rfl⟩ := hadded c hc
    rw [(Js.EventEmitter.mem_calls.mp hcall).2]
  · exact List.mem_map.mpr ⟨(r, argument), Js.EventEmitter.mem_calls.mpr ⟨hmem, rfl⟩, rfl⟩

/-- A called listener whose request can still be written to writes the event. -/
theorem written_of_call {name : String} (argument : ListenerArgument)
    (hmem : r ∈ s.events.listeners name) (hr : s.handler r = some h)
    (hopen : h.response.ended = false) (hclosed : h.closed = false) :
    ∃ h', (s.call (s.events.calls name argument)).handler r = some h' ∧ h'.lookup = h.lookup ∧
      Chunk.event argument.eventType argument.data ∈ h'.response.written := by
  obtain ⟨h', added, hh', hcore, hwritten, hadded, hnonempty⟩ := written_calls name argument hr
  obtain ⟨c, hc⟩ := List.exists_mem_of_ne_nil added (hnonempty hmem hopen hclosed)
  refine ⟨h', hh', congrArg (fun h ↦ h.lookup) hcore, ?_⟩
  rw [hwritten, ← hadded c hc]
  exact List.mem_append_right _ hc

end State

/-! ### A property of every request -/

variable {P Q : Handler → Prop} {s s' : State}

namespace State

/-- A change of a request that keeps the property keeps it for all. -/
theorem forall_modify (hs : ∀ r h, s.handler r = some h → P h) {r : Nat} {f : Handler → Handler}
    (hf : ∀ h, s.handler r = some h → P h → P (f h)) :
    ∀ q h, (s.modify r f).handler q = some h → P h := by
  intro q h' hq
  rw [handler_modify] at hq
  split at hq
  · next hqr =>
    obtain ⟨h, hh, rfl⟩ := Option.map_eq_some_iff.mp hq
    exact hf h (hqr ▸ hh) (hs q h hh)
  · exact hs q h' hq

/-- Calling listeners keeps the property for all if it does so for those who may be called. -/
theorem forall_call {argument : ListenerArgument} {calls : ListenerCalls}
    (hs : ∀ r h, s.handler r = some h → P h) (hlisten : ∀ h, P h → Q h → P (h.listen argument))
    (hkeep : ∀ h, Q h → Q (h.listen argument)) (hargument : ∀ call ∈ calls, call.2 = argument)
    (hcalled : ∀ call ∈ calls, ∀ h, s.handler call.1 = some h → Q h) :
    ∀ r h, (s.call calls).handler r = some h → P h := by
  induction calls generalizing s with
  | nil => exact hs
  | cons call rest ih =>
    obtain rfl := hargument call List.mem_cons_self
    refine ih (forall_modify hs fun h hh hP ↦ hlisten h hP (hcalled call List.mem_cons_self h hh))
      (fun other hother ↦ hargument other (List.mem_cons_of_mem _ hother)) ?_
    intro other hother h hh
    rw [handler_modify] at hh
    split at hh
    · obtain ⟨h₀, hh₀, rfl⟩ := Option.map_eq_some_iff.mp hh
      exact hkeep h₀ (hcalled other (List.mem_cons_of_mem _ hother) h₀ hh₀)
    · exact hcalled other (List.mem_cons_of_mem _ hother) h hh

/-- An event keeps the property for all if it does so for its listeners. -/
theorem forall_calls {name : String} {argument : ListenerArgument}
    (hs : ∀ r h, s.handler r = some h → P h) (hlisten : ∀ h, P h → Q h → P (h.listen argument))
    (hkeep : ∀ h, Q h → Q (h.listen argument))
    (hcalled : ∀ r ∈ s.events.listeners name, ∀ h, s.handler r = some h → Q h) :
    ∀ r h, (s.call (s.events.calls name argument)).handler r = some h → P h :=
  forall_call hs hlisten hkeep (fun _ hcall ↦ (Js.EventEmitter.mem_calls.mp hcall).2)
    (fun call hcall ↦ hcalled call.1 (Js.EventEmitter.mem_calls.mp hcall).1)

end State

/-- Whatever every way of changing a request keeps, a step keeps for all requests. -/
theorem forall_step {a : Action} (hstep : step s a = some s')
    (hs : ∀ r h, s.handler r = some h → P h)
    (hinitial : ∀ transactionId auth, P (.initial transactionId auth))
    (hname : ∀ h name, P h → P (h.listen (.name name)))
    (hpublish : ∀ event, a = .publish event → ∀ r h,
      (s.call (s.events.calls event.transactionId (.event event))).handler r = some h → P h)
    (hresume : ∀ h result, P h → h.lookup = none → result.answers h.transactionId = true →
      P (h.resume result))
    (hheartbeat : ∀ h, P h → P { h with response := h.response.write .heartbeat })
    (hdisconnect : ∀ h, P h → P h.disconnect) :
    ∀ r h, s'.handler r = some h → P h := by
  have hcall : ∀ {t : State} {calls : ListenerCalls} {name : String},
      (∀ r h, t.handler r = some h → P h) → (∀ call ∈ calls, call.2 = .name name) →
      ∀ r h, (t.call calls).handler r = some h → P h :=
    fun ht hname' ↦ State.forall_call (Q := fun _ ↦ True) ht (fun h hP _ ↦ hname h _ hP)
      (fun _ _ ↦ trivial) hname' (fun _ _ _ _ ↦ trivial)
  cases a with
  | request r transactionId auth =>
    simp only [step] at hstep
    split at hstep
    · cases hstep
      refine hcall (t := { s with handler := _ }) (fun q h hq ↦ ?_)
        (subscribeToTransaction_argument transactionId r s.events)
      by_cases hqr : q = r
      · subst hqr
        simp only [Function.update_self] at hq
        cases hq
        exact hinitial transactionId auth
      · simp only [Function.update_of_ne hqr] at hq
        exact hs q h hq
    · cases hstep
  | lookup r result =>
    simp only [step] at hstep
    split at hstep
    · next h hr =>
      split at hstep
      · next hguard =>
        obtain ⟨hnone, hresult⟩ := Bool.and_eq_true_iff.mp hguard
        rw [Option.isNone_iff_eq_none] at hnone
        cases hstep
        split
        · have hremoved : ∀ q x, (s.unsubscribe h.transactionId r).handler q = some x → P x :=
            hcall (t := { s with events := _ }) hs
              (unsubscribe_argument h.transactionId r s.events)
          refine State.forall_modify hremoved fun h' hr' hP ↦ ?_
          -- the listeners of `removeListener` leave the request as it was
          obtain ⟨h₁, hr₁, hkeeps⟩ := State.keeps_call
            (s := { s with events := s.events.off h.transactionId r })
            (Banking.unsubscribe h.transactionId r s.events).1 hr
          obtain rfl : h₁ = h' := Option.some.inj (hr₁.symm.trans hr')
          exact hresume h₁ result hP (hkeeps.lookup.trans hnone) (hkeeps.transactionId ▸ hresult)
        · refine State.forall_modify hs fun h' hr' hP ↦ ?_
          obtain rfl : h = h' := Option.some.inj (hr.symm.trans hr')
          exact hresume h result hP hnone hresult
      · cases hstep
    · cases hstep
  | publish event =>
    simp only [step, publishRealtimeEvent] at hstep
    cases hemit : s.events.emit event.transactionId (ListenerArgument.event event) with
    | none =>
      rw [hemit] at hstep
      cases hstep
      exact hs
    | some called =>
      rw [hemit] at hstep
      cases hstep
      obtain rfl := Js.EventEmitter.calls_of_emit hemit
      exact hpublish event rfl
  | heartbeat r =>
    simp only [step] at hstep
    split at hstep
    · split at hstep
      · cases hstep
        exact State.forall_modify hs fun h _ hP ↦ hheartbeat h hP
      · cases hstep
    · cases hstep
  | disconnect r =>
    simp only [step] at hstep
    split at hstep
    · split at hstep
      · cases hstep
      · cases hstep
        have hgone : ∀ q x, (s.modify r Handler.disconnect).handler q = some x → P x :=
          State.forall_modify hs fun h _ hP ↦ hdisconnect h hP
        split
        · exact hcall (t := { s.modify r Handler.disconnect with events := _ }) hgone
            (unsubscribe_argument _ r s.events)
        · exact hgone
    · cases hstep

end Banking.EventStream
