import Banking.Properties.EventStream

/-!
# Which subscriptions are released

A request that finds no transaction, or a foreign one, unsubscribes before it answers; a stream
unsubscribes when its client disconnects. A lookup that throws, an event during the lookup and a
disconnect during the lookup leave the listener behind, and the last of these the timer too.
-/

namespace Banking.EventStream

/-- A handler that has run to its end, with a response that is over, has neither a listener nor a
timer. -/
def Released (s : State) : Prop :=
  ∀ r h, s.handler r = some h → h.lookup ≠ none → h.response.ended = true →
    (h.transactionId, r) ∉ s.events.registered ∧ h.heartbeat = false

/-- The handler may go on with the result: it refuses the request, or it opens the stream of a
client that is still there and was not sent anything. -/
def Handler.mayResume (h : Handler) : LookupResult → Bool
  | .threw => false
  | .missing => true
  | .found _ userId => isForeign h.auth userId || !h.response.headersSent && !h.disconnected

/-- A lookup that ends leaves a handler that may go on with its result. -/
def resumable (s : State) : Action → Bool
  | .lookup r result => (s.handler r).all fun h ↦
    h.lookup.isSome || !result.answers h.transactionId || h.mayResume result
  | _ => true

/-! ### One request -/

namespace Handler

/-- Whether the listener of a request is registered, from where the request is. -/
structure Tracked (h : Handler) (registered : Prop) : Prop where
  pending : h.lookup = none →
    registered ∧ h.heartbeat = false ∧ h.onClose = false ∧ h.response.ended = h.disconnected
  ended : h.lookup ≠ none → h.response.ended = true → ¬ registered ∧ h.heartbeat = false
  streaming : h.lookup ≠ none → h.response.ended = false → h.onClose = true

variable {h h' : Handler} {registered : Prop}

/-- What was written does not matter. -/
theorem Tracked.of_core (ht : h.Tracked registered) (hcore : h'.core = h.core) :
    h'.Tracked registered := by
  have hlookup : h'.lookup = h.lookup := congrArg (fun h ↦ h.lookup) hcore
  have hheartbeat : h'.heartbeat = h.heartbeat := congrArg (fun h ↦ h.heartbeat) hcore
  have honClose : h'.onClose = h.onClose := congrArg (fun h ↦ h.onClose) hcore
  have hdisconnected : h'.disconnected = h.disconnected := congrArg (fun h ↦ h.disconnected) hcore
  have hended : h'.response.ended = h.response.ended :=
    congrArg (fun h ↦ h.response.ended) hcore
  constructor
  · rw [hlookup, hheartbeat, honClose, hended, hdisconnected]
    exact ht.pending
  · rw [hlookup, hended, hheartbeat]
    exact ht.ended
  · rw [hlookup, hended, honClose]
    exact ht.streaming

/-- A new request has just subscribed. -/
theorem Tracked.initial (transactionId : String) (auth : Auth) (hregistered : registered) :
    (Handler.initial transactionId auth).Tracked registered where
  pending := fun _ ↦ ⟨hregistered, rfl, rfl, rfl⟩
  ended := fun hsome ↦ absurd rfl hsome
  streaming := fun hsome ↦ absurd rfl hsome

/-- A refused request ends after it has unsubscribed. -/
theorem Tracked.refuse {result : LookupResult} (hrefused : isRefused h.auth result = true)
    (hheartbeat : h.heartbeat = false) : (h.resume result).Tracked False := by
  have hspec : (h.resume result).lookup = some result ∧
      (h.resume result).response.ended = true ∧ (h.resume result).heartbeat = false := by
    cases result with
    | threw => cases hrefused
    | missing => exact ⟨rfl, (refuse_spec _ _ _).1, hheartbeat⟩
    | found transaction userId =>
      have hforeign : isForeign h.auth userId = true := hrefused
      simp only [resume, hforeign, if_true]
      exact ⟨trivial, (refuse_spec _ _ _).1, hheartbeat⟩
  obtain ⟨hlookup, hended, hheartbeat⟩ := hspec
  refine ⟨fun hnone ↦ ?_, fun _ _ ↦ ⟨id, hheartbeat⟩, fun _ hopen ↦ ?_⟩
  · rw [hlookup] at hnone
    cases hnone
  · rw [hended] at hopen
    cases hopen

/-- A request that opens its stream listens for the disconnect. -/
theorem Tracked.opened {result : LookupResult} (hresume : h.mayResume result = true)
    (hrefused : isRefused h.auth result ≠ true) (hended : h.response.ended = h.disconnected)
    (registered : Prop) : (h.resume result).Tracked registered := by
  cases result with
  | threw => cases hresume
  | missing => exact absurd rfl hrefused
  | found transaction userId =>
    have hforeign : isForeign h.auth userId = false := Bool.eq_false_iff.mpr hrefused
    simp only [mayResume, hforeign, Bool.false_or, Bool.and_eq_true, Bool.not_eq_true'] at hresume
    obtain ⟨hunsent, hconnected⟩ := hresume
    simp only [resume, hforeign, Bool.false_eq_true, if_false]
    cases hopen : openStream h.response with
    | none => simp [openStream, Response.setHeader, hunsent] at hopen
    | some response =>
      have hlive : response.ended = false :=
        (openStream_spec hopen).1.trans (hended.trans hconnected)
      have hopened : ∀ {h' : Handler}, h'.lookup = some (.found transaction userId) →
          h'.response.ended = false → h'.onClose = true → h'.Tracked registered := by
        intro h' hlookup hopen honClose
        refine ⟨fun hnone ↦ ?_, fun _ hover ↦ ?_, fun _ _ ↦ honClose⟩
        · rw [hlookup] at hnone
          cases hnone
        · rw [hopen] at hover
          cases hover
      simp only [sendEvent]
      split
      · exact hopened rfl hlive rfl
      · exact hopened rfl ((ended_write _ _).trans hlive) rfl

/-- The client of a stream disconnects, and the stream unsubscribes. -/
theorem Tracked.close (honClose : h.onClose = true) (hsome : h.lookup ≠ none) :
    h.disconnect.Tracked False := by
  simp only [disconnect, honClose, if_true]
  exact ⟨fun hnone ↦ absurd hnone hsome, fun _ _ ↦ ⟨id, rfl⟩, fun _ _ ↦ rfl⟩

/-- A client disconnects before its request is a stream, or after it was answered. -/
theorem Tracked.disconnect (ht : h.Tracked registered) (honClose : h.onClose = false) :
    h.disconnect.Tracked registered := by
  simp only [Handler.disconnect, honClose, Bool.false_eq_true, if_false]
  refine ⟨fun hnone ↦ ?_, fun hsome _ ↦ ?_, fun _ hopen ↦ ?_⟩
  · obtain ⟨hregistered, hheartbeat, -, -⟩ := ht.pending hnone
    exact ⟨hregistered, hheartbeat, rfl, rfl⟩
  · refine ht.ended hsome (Bool.of_not_eq_false fun hopen ↦ ?_)
    have hstreaming := ht.streaming hsome hopen
    rw [honClose] at hstreaming
    cases hstreaming
  · cases hopen

/-- A result that the request may not go on with ends it, or finds it over; the listener stays. -/
theorem ended_resume {result : LookupResult} (hresume : ¬ h.mayResume result = true)
    (hended : h.response.ended = h.disconnected) :
    (h.resume result).lookup ≠ none ∧ (h.resume result).response.ended = true ∧
      (h.resume result).transactionId = h.transactionId := by
  have hsome : some result ≠ none := Option.some_ne_none result
  cases result with
  | threw => exact ⟨hsome, (fail_spec _).1, rfl⟩
  | missing => exact absurd rfl hresume
  | found transaction userId =>
    simp only [mayResume, Bool.or_eq_true, not_or, Bool.not_eq_true, Bool.and_eq_false_iff,
      Bool.not_eq_false'] at hresume
    obtain ⟨hforeign, hlost⟩ := hresume
    simp only [resume, hforeign, Bool.false_eq_true, if_false]
    cases hopen : openStream h.response with
    | none => exact ⟨hsome, (fail_spec _).1, rfl⟩
    | some response =>
      rcases hlost with hsent | hdisconnected
      · simp [openStream, Response.setHeader, hsent] at hopen
      · have hover : response.ended = true :=
          (openStream_spec hopen).1.trans (hended.trans hdisconnected)
        simp only [sendEvent]
        split
        · exact ⟨hsome, hover, rfl⟩
        · exact ⟨hsome, (ended_write _ _).trans hover, rfl⟩

end Handler

/-! ### All requests -/

namespace State

/-- Every listener belongs to a request that is still to be released. -/
structure Tracked (s : State) : Prop where
  nodup : s.events.registered.Nodup
  known : ∀ entry ∈ s.events.registered, s.handler entry.2 ≠ none
  requests : ∀ r h, s.handler r = some h →
    h.Tracked ((h.transactionId, r) ∈ s.events.registered)

variable {s : State}

/-- What was written does not matter. -/
theorem Tracked.of_core {t : State} (ht : t.Tracked) (hevents : s.events = t.events)
    (hcore : ∀ q, (s.handler q).map Handler.core = (t.handler q).map Handler.core) :
    s.Tracked where
  nodup := by
    rw [hevents]
    exact ht.nodup
  known := by
    intro entry hentry hnone
    have hmap := hcore entry.2
    rw [hnone, Option.map_none] at hmap
    exact ht.known entry (hevents ▸ hentry) (Option.map_eq_none_iff.mp hmap.symm)
  requests := by
    intro q h' hq
    have hmap := hcore q
    rw [hq, Option.map_some] at hmap
    obtain ⟨h, hh, heq⟩ := Option.map_eq_some_iff.mp hmap.symm
    have htid : h'.transactionId = h.transactionId :=
      congrArg (fun h ↦ h.transactionId) heq.symm
    rw [hevents, htid]
    exact (ht.requests q h hh).of_core heq.symm

/-- Calling listeners keeps every subscription. -/
theorem Tracked.call (ht : s.Tracked) (calls : ListenerCalls) : (s.call calls).Tracked :=
  ht.of_core (events_call s calls) (core_call s calls)

/-- Whoever is called, the registrations may change before or after. -/
theorem call_events (s : State) (calls : ListenerCalls) (events : Listeners) :
    { s.call calls with events } = ({ s with events } : State).call calls := by
  induction calls generalizing s with
  | nil => rfl
  | cons call rest ih => exact ih (s.modify call.1 (Handler.listen call.2))

/-- A new request registers its listener. -/
theorem Tracked.on (ht : s.Tracked) {r : Nat} (hnew : s.handler r = none) (transactionId : String)
    (auth : Auth) : State.Tracked ⟨s.events.on transactionId r,
      Function.update s.handler r (some (.initial transactionId auth))⟩ where
  nodup := Js.EventEmitter.nodup_on ht.nodup fun hmem ↦ ht.known _ hmem hnew
  known := by
    intro entry hentry
    dsimp only at hentry ⊢
    by_cases hr : entry.2 = r
    · simp [hr]
    · rcases Js.EventEmitter.mem_on.mp hentry with hold | rfl
      · rw [Function.update_of_ne hr]
        exact ht.known entry hold
      · exact absurd rfl hr
  requests := by
    intro q h hq
    dsimp only at hq ⊢
    by_cases hqr : q = r
    · subst hqr
      rw [Function.update_self] at hq
      cases hq
      exact .initial transactionId auth (Js.EventEmitter.mem_on.mpr (.inr rfl))
    · rw [Function.update_of_ne hqr] at hq
      have hiff : (h.transactionId, q) ∈ (s.events.on transactionId r).registered ↔
          (h.transactionId, q) ∈ s.events.registered := by
        rw [Js.EventEmitter.mem_on, or_iff_left]
        intro heq
        exact hqr (congrArg Prod.snd heq)
      rw [hiff]
      exact ht.requests q h hq

/-- A request that is over unsubscribes. -/
theorem Tracked.off (ht : s.Tracked) {r : Nat} {h h' : Handler} (hr : s.handler r = some h)
    (htid : h'.transactionId = h.transactionId) (hh' : h'.Tracked False) :
    State.Tracked ⟨s.events.off h.transactionId r, Function.update s.handler r (some h')⟩ where
  nodup := Js.EventEmitter.nodup_off ht.nodup
  known := by
    intro entry hentry
    dsimp only at hentry ⊢
    by_cases hentryr : entry.2 = r
    · simp [hentryr]
    · rw [Function.update_of_ne hentryr]
      exact ht.known entry ((Js.EventEmitter.mem_off ht.nodup).mp hentry).2
  requests := by
    intro q x hq
    dsimp only at hq ⊢
    by_cases hqr : q = r
    · subst hqr
      rw [Function.update_self] at hq
      cases hq
      have hgone : (h'.transactionId, q) ∉ (s.events.off h.transactionId q).registered := by
        rw [Js.EventEmitter.mem_off ht.nodup, htid]
        exact fun hmem ↦ hmem.1 rfl
      rw [eq_false hgone]
      exact hh'
    · rw [Function.update_of_ne hqr] at hq
      have hiff : (x.transactionId, q) ∈ (s.events.off h.transactionId r).registered ↔
          (x.transactionId, q) ∈ s.events.registered := by
        rw [Js.EventEmitter.mem_off ht.nodup, and_iff_right]
        intro heq
        exact hqr (congrArg Prod.snd heq)
      rw [hiff]
      exact ht.requests q x hq

/-- A request changes and stays registered or not. -/
theorem Tracked.modify (ht : s.Tracked) {r : Nat} {h : Handler} {f : Handler → Handler}
    (hr : s.handler r = some h) (htid : (f h).transactionId = h.transactionId)
    (hf : (f h).Tracked ((h.transactionId, r) ∈ s.events.registered)) : (s.modify r f).Tracked where
  nodup := ht.nodup
  known := by
    intro entry hentry hnone
    rw [handler_modify] at hnone
    split at hnone
    · exact ht.known entry hentry (Option.map_eq_none_iff.mp hnone)
    · exact ht.known entry hentry hnone
  requests := by
    intro q x hq
    rw [handler_modify] at hq
    split at hq
    · next hqr =>
      subst hqr
      rw [hr] at hq
      cases hq
      rw [htid]
      exact hf
    · exact ht.requests q x hq

end State

/-! ### Steps -/

variable {s s' : State}

/-- The transactionId of a request does not depend on how its handler goes on. -/
theorem Handler.transactionId_resume (result : LookupResult) (h : Handler) :
    (h.resume result).transactionId = h.transactionId := by
  cases result with
  | threw => rfl
  | missing => rfl
  | found transaction userId =>
    simp only [resume, sendEvent]
    split
    · rfl
    · split
      · rfl
      · split <;> rfl

/-- A disconnect keeps the transactionId. -/
theorem Handler.transactionId_disconnect (h : Handler) :
    h.disconnect.transactionId = h.transactionId := by
  simp only [disconnect]
  split <;> rfl

/-- The end of a lookup keeps every subscription tracked if the request may go on. -/
theorem State.Tracked.lookup (ht : s.Tracked) {r : Nat} {h : Handler} {result : LookupResult}
    (hr : s.handler r = some h) (hnone : h.lookup = none) (hresume : h.mayResume result = true) :
    ((if Handler.isRefused h.auth result then s.unsubscribe h.transactionId r else s).modify r
      (Handler.resume result)).Tracked := by
  obtain ⟨-, hheartbeat, -, hended⟩ := (ht.requests r h hr).pending hnone
  split
  · next hrefused =>
    -- the request as the listeners of `removeListener` leave it
    have hcalled := State.core_call { s with events := s.events.off h.transactionId r }
      (Banking.unsubscribe h.transactionId r s.events).1
    have hcalledr := hcalled r
    rw [hr, Option.map_some] at hcalledr
    obtain ⟨h₁, hr₁, hcore⟩ := Option.map_eq_some_iff.mp hcalledr
    have htid : h₁.transactionId = h.transactionId := congrArg (fun h ↦ h.transactionId) hcore
    have hauth : h₁.auth = h.auth := congrArg (fun h ↦ h.auth) hcore
    have hheartbeat₁ : h₁.heartbeat = false :=
      (congrArg (fun h ↦ h.heartbeat) hcore).trans hheartbeat
    have hover : (h₁.resume result).Tracked False :=
      .refuse (hauth ▸ hrefused) hheartbeat₁
    have hoff := ht.off hr ((Handler.transactionId_resume result h₁).trans htid) hover
    refine hoff.of_core (State.events_call _ _) fun q ↦ ?_
    rw [State.handler_modify]
    split
    · next hqr =>
      subst hqr
      have hcalledq : (s.unsubscribe h.transactionId q).handler q = some h₁ := hr₁
      simp [hcalledq]
    · next hqr =>
      refine (hcalled q).trans ?_
      simp [Function.update_of_ne hqr]
  · next hrefused =>
    exact ht.modify hr (Handler.transactionId_resume result h) (.opened hresume hrefused hended _)

/-- A disconnect keeps every subscription tracked. -/
theorem State.Tracked.disconnect (ht : s.Tracked) {r : Nat} {h : Handler}
    (hr : s.handler r = some h) :
    (if h.onClose then (s.modify r Handler.disconnect).unsubscribe h.transactionId r
      else s.modify r Handler.disconnect).Tracked := by
  have hh := ht.requests r h hr
  split
  · next honClose =>
    have hsome : h.lookup ≠ none := by
      intro hnone
      rw [(hh.pending hnone).2.2.1] at honClose
      cases honClose
    have hoff := ht.off hr h.transactionId_disconnect (.close honClose hsome)
    have hgone : ({ s.modify r Handler.disconnect with
        events := s.events.off h.transactionId r } : State).Tracked := by
      rw [State.modify, hr]
      exact hoff
    exact hgone.call _
  · next honClose =>
    exact ht.modify hr h.transactionId_disconnect (hh.disconnect (Bool.eq_false_iff.mpr honClose))

/-- A step at whose end the handler may go on keeps every subscription tracked. -/
theorem tracked_step {a : Action} (hresumable : resumable s a = true) (hstep : step s a = some s')
    (ht : s.Tracked) : s'.Tracked := by
  cases a with
  | request r transactionId auth =>
    simp only [step] at hstep
    split at hstep
    · next hnew =>
      cases hstep
      simp only [State.subscribe, subscribeToTransaction]
      rw [State.call_events]
      exact (ht.on hnew transactionId auth).call _
    · cases hstep
  | lookup r result =>
    simp only [step] at hstep
    split at hstep
    · next h hr =>
      split at hstep
      · next hguard =>
        obtain ⟨hnone, hresult⟩ := Bool.and_eq_true_iff.mp hguard
        cases hstep
        have hresume : h.mayResume result = true := by
          simpa [resumable, hr, hresult, Option.isNone_iff_eq_none.mp hnone] using hresumable
        exact ht.lookup hr (Option.isNone_iff_eq_none.mp hnone) hresume
      · cases hstep
    · cases hstep
  | publish event =>
    simp only [step] at hstep
    split at hstep
    · cases hstep
      exact ht.call _
    · cases hstep
      exact ht
  | heartbeat r =>
    simp only [step] at hstep
    split at hstep
    · split at hstep
      · cases hstep
        refine ht.of_core rfl fun q ↦ ?_
        rw [State.handler_modify]
        split
        · rw [Option.map_map]
          exact Option.map_congr fun h _ ↦ h.core_write .heartbeat
        · rfl
      · cases hstep
    · cases hstep
  | disconnect r =>
    simp only [step] at hstep
    split at hstep
    · next h hr =>
      split at hstep
      · cases hstep
      · cases hstep
        exact ht.disconnect hr
    · cases hstep

/-- Tracked subscriptions are released. -/
theorem released_of_tracked (ht : s.Tracked) : Released s :=
  fun r h hr hsome hended ↦ (ht.requests r h hr).ended hsome hended

/-- A lookup whose request may not go on leaves the listener behind. -/
theorem not_released_of_not_resumable {a : Action} (hresumable : ¬ resumable s a = true)
    (ht : s.Tracked) : ∃ s', step s a = some s' ∧ ¬ Released s' := by
  cases a with
  | lookup r result =>
    cases hr : s.handler r with
    | none => simp [resumable, hr] at hresumable
    | some h =>
      simp only [resumable, hr, Option.all_some, Bool.or_eq_true, not_or, Bool.not_eq_true',
        Bool.not_eq_false] at hresumable
      obtain ⟨⟨hpending, hresult⟩, hresume⟩ := hresumable
      have hnone : h.lookup = none := by simpa using hpending
      obtain ⟨hregistered, -, -, hended⟩ := (ht.requests r h hr).pending hnone
      have hrefused : ¬ Handler.isRefused h.auth result = true := by
        intro hrefused
        cases result with
        | threw => cases hrefused
        | missing => exact hresume rfl
        | found transaction userId => exact hresume (Bool.or_eq_true_iff.mpr (.inl hrefused))
      obtain ⟨hsome, hover, htid⟩ := Handler.ended_resume hresume hended
      refine ⟨s.modify r (Handler.resume result), ?_, fun hreleased ↦ ?_⟩
      · simp only [step, hr, hnone, Option.isNone_none, hresult, Bool.and_self, if_true,
          if_neg hrefused]
      · have hleft : (s.modify r (Handler.resume result)).handler r = some (h.resume result) := by
          rw [State.handler_modify, if_pos rfl, hr, Option.map_some]
        exact (hreleased r _ hleft hsome hover).1 (htid ▸ hregistered)
  | request r transactionId auth => exact absurd rfl hresumable
  | publish event => exact absurd rfl hresumable
  | heartbeat r => exact absurd rfl hresumable
  | disconnect r => exact absurd rfl hresumable

/-- A process without requests has nothing to release. -/
theorem tracked_initial : State.initial.Tracked where
  nodup := List.nodup_nil
  known := by
    intro entry hentry
    cases hentry
  requests := by
    intro r h hr
    cases hr

/-- In a run every subscription is released if and only if every lookup refuses its request, or
finds its transaction while the client is still there and was not sent anything. -/
theorem released_iff (actions : List Action) :
    Relational.Throughout step Released .initial actions ↔
      Relational.Meets step (fun s a ↦ resumable s a = true) .initial actions :=
  Relational.throughout_iff_meets (I := State.Tracked) (fun _ ↦ released_of_tracked)
    (fun _ _ _ ↦ tracked_step) (fun _ _ ↦ not_released_of_not_resumable) tracked_initial actions

/-! ### A run -/

/-- The client disconnects during the lookup of its own transaction: the stream is opened for
nobody, and its listener and its timer stay. -/
theorem disconnect_during_lookup : ∃ s h,
    Relational.execute step .initial [.request 0 "txn-1" ⟨"user-1", .CUSTOMER⟩, .disconnect 0,
      .lookup 0 (.found Sample.transaction "user-1")] = some s ∧
      s.handler 0 = some h ∧ ("txn-1", 0) ∈ s.events.registered ∧ h.heartbeat = true ∧
      ¬ Released s := by
  refine ⟨_, _, rfl, rfl, List.mem_singleton_self _, rfl, fun hreleased ↦ ?_⟩
  have hgone := hreleased 0 _ rfl (by decide) rfl
  cases hgone.2

end Banking.EventStream
