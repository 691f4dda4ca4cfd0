import Banking.Realtime.Consumer
import Banking.Transactions.Route

/-!
# Who a realtime event reaches

Every transaction has the list of its subscriptions, and an event is to reach exactly these, as it
is. The emitter behind the service keeps that list under the transactionId as event name, and three
names mean something of their own to it.
-/

namespace Banking.Realtime

open Consumer (Bytes Runtime)

/-! ### Calls of the service -/

/-- The calls of the service, by themselves and by the route and the consumer. -/
inductive Call where
  /-- `subscribeToTransaction` with a closure of its own, named by the number of the call. -/
  | subscribe (transactionId : String)
  /-- The function that call `k` of `subscribeToTransaction` returned, any number of times. -/
  | unsubscribe (k : Nat)
  | publish (event : RealtimeTransactionEvent)
  /-- `POST /transactions`. -/
  | post (body : Option Json)
  /-- A message of the realtime consumer. -/
  | eachMessage (value : Option Bytes)

/-- The emitter, and the transactionIds of the calls of `subscribeToTransaction` so far. -/
structure Service where
  events : Listeners
  issued : List String

/-- What a call leaves; only subscribing and unsubscribing change anything. -/
def Service.perform (s : Service) : Call → Service
  | .subscribe transactionId =>
    ⟨(subscribeToTransaction transactionId s.issued.length s.events).2, s.issued ++ [transactionId]⟩
  | .unsubscribe k =>
    match s.issued[k]? with
    | some transactionId => { s with events := (unsubscribe transactionId k s.events).2 }
    | none => s
  | _ => s

/-- The service after some calls. -/
def after (history : List Call) : Service := history.foldl Service.perform ⟨.empty, []⟩

/-! ### What it is for -/

/-- The transactionIds of all subscriptions so far, and those still there with their numbers. -/
structure Subscriptions where
  issued : List String
  live : List (String × Nat)

/-- A subscription is there until it is cancelled. -/
def Subscriptions.perform (s : Subscriptions) : Call → Subscriptions
  | .subscribe transactionId =>
    ⟨s.issued ++ [transactionId], s.live ++ [(transactionId, s.issued.length)]⟩
  | .unsubscribe k => { s with live := s.live.filter (·.2 ≠ k) }
  | _ => s

/-- The subscriptions after some calls. -/
def subscriptions (history : List Call) : Subscriptions :=
  history.foldl Subscriptions.perform ⟨[], []⟩

/-- The subscriptions of a transaction in order. -/
def subscribed (history : List Call) (transactionId : String) : List Nat :=
  ((subscriptions history).live.filter (·.1 = transactionId)).map Prod.snd

/-- The listeners of the event's transaction are called with the event, each once and in order, and
nobody else is called. -/
def Delivers (history : List Call) (event : RealtimeTransactionEvent)
    (called : Option ListenerCalls) : Prop :=
  called = some ((subscribed history event.transactionId).map fun k ↦ (k, .event event)) ∧
    (subscribed history event.transactionId).Nodup

/-- A call delivers its event, or calls no listener of another transaction; the route delivers that
the transaction is pending and reaches the engine for every valid body, and the consumer delivers
the type and the payload of every valid event. -/
def Isolated (runtime : Runtime) (history : List Call) : Call → Prop
  | .subscribe transactionId =>
    ∀ call ∈ (subscribeToTransaction transactionId (after history).issued.length
      (after history).events).1, call.1 ∈ subscribed history transactionId
  | .unsubscribe k =>
    ∀ transactionId, (after history).issued[k]? = some transactionId →
      ∀ call ∈ (unsubscribe transactionId k (after history).events).1,
        call.1 ∈ subscribed history transactionId
  | .publish event =>
    Delivers history event (publishRealtimeEvent event (after history).events)
  | .post body =>
    ∀ input, createTransactionSchema body = some input →
      ∃ called, postTransaction body (after history).events = some (input, called) ∧
        Delivers history ⟨input.transactionId, "TransactionPending",
          .obj [("transactionId", .str input.transactionId), ("status", .str "PENDING")]⟩
          (some called)
  | .eachMessage value =>
    ∀ rawValue event, value.map runtime.toString = some rawValue → rawValue ≠ "" →
      RealtimeConsumer.decode runtime rawValue = some event →
      Delivers history ⟨event.transactionId, event.eventType, .obj event.payload⟩
        (RealtimeConsumer.eachMessage runtime value (after history).events)

/-- An event of this name has a listener, or is not the event `error`. -/
def Heard (history : List Call) (transactionId : String) : Prop :=
  transactionId = "error" → subscribed history "error" ≠ []

/-- The call stays clear of the names that the emitter reserves. -/
def Permitted (runtime : Runtime) (history : List Call) : Call → Prop
  | .subscribe transactionId =>
    transactionId = "newListener" ∨ subscribed history "newListener" = []
  | .unsubscribe k =>
    ∀ transactionId, k ∈ subscribed history transactionId →
      transactionId = "removeListener" ∨ subscribed history "removeListener" = []
  | .publish event => Heard history event.transactionId
  | .post body =>
    ∀ input, createTransactionSchema body = some input → Heard history input.transactionId
  | .eachMessage value =>
    ∀ rawValue event, value.map runtime.toString = some rawValue → rawValue ≠ "" →
      RealtimeConsumer.decode runtime rawValue = some event → Heard history event.transactionId

/-! ### The emitter keeps the subscriptions -/

/-- The emitter holds the subscriptions that are there, each under the number of its call. -/
structure Refines (s : Service) (r : Subscriptions) : Prop where
  issued : s.issued = r.issued
  live : s.events.registered = r.live
  known : ∀ entry ∈ r.live, r.issued[entry.2]? = some entry.1
  nodup : (r.live.map Prod.snd).Nodup

/-- A call keeps the emitter and the subscriptions together. -/
theorem Refines.perform {s : Service} {r : Subscriptions} (h : Refines s r) (call : Call) :
    Refines (s.perform call) (r.perform call) := by
  cases call with
  | subscribe transactionId =>
    have hlt : ∀ entry ∈ r.live, entry.2 < r.issued.length :=
      fun entry hentry ↦ (List.getElem?_eq_some_iff.mp (h.known entry hentry)).1
    constructor
    · exact congrArg (· ++ [transactionId]) h.issued
    · simp only [Service.perform, Subscriptions.perform, subscribeToTransaction,
        Js.EventEmitter.on, h.live, h.issued]
    · intro entry hentry
      rcases List.mem_append.mp hentry with hold | hnew
      · exact (List.getElem?_append_left (hlt entry hold)).trans (h.known entry hold)
      · rw [List.mem_singleton.mp hnew]
        exact List.getElem?_concat_length
    · simp only [Subscriptions.perform, List.map_append, List.map_cons, List.map_nil]
      refine List.nodup_append.mpr ⟨h.nodup, List.nodup_singleton _, ?_⟩
      intro k hk l hl heq
      obtain ⟨entry, hentry, rfl⟩ := List.mem_map.mp hk
      rw [List.mem_singleton.mp hl] at heq
      exact Nat.ne_of_lt (hlt entry hentry) heq
  | unsubscribe k =>
    have hkept : (r.live.filter (·.2 ≠ k)).Sublist r.live := List.filter_sublist
    have hknown : ∀ entry ∈ r.live.filter (·.2 ≠ k), r.issued[entry.2]? = some entry.1 :=
      fun entry hentry ↦ h.known entry (hkept.subset hentry)
    have hnodup : ((r.live.filter (·.2 ≠ k)).map Prod.snd).Nodup :=
      h.nodup.sublist (hkept.map Prod.snd)
    simp only [Service.perform]
    split
    · next transactionId hissued =>
      refine ⟨h.issued, ?_, hknown, hnodup⟩
      have hregistered : s.events.registered.Nodup := by
        rw [h.live]
        exact h.nodup.of_map
      rw [unsubscribe, Js.EventEmitter.off_eq_filter hregistered, h.live]
      refine List.filter_congr fun entry hentry ↦ decide_eq_decide.mpr ?_
      constructor
      · rintro hne rfl
        have hsame := (h.known entry hentry).symm.trans (h.issued ▸ hissued)
        exact hne (Prod.ext (Option.some.inj hsame) rfl)
      · rintro hne rfl
        exact hne rfl
    · next hissued =>
      refine ⟨h.issued, ?_, hknown, hnodup⟩
      refine h.live.trans (List.filter_eq_self.mpr fun entry hentry ↦ ?_).symm
      refine decide_eq_true fun hk ↦ ?_
      have hsome := h.known entry hentry
      rw [hk, ← h.issued, hissued] at hsome
      cases hsome
  | publish event => exact h
  | post body => exact h
  | eachMessage value => exact h

/-- After any calls the emitter holds exactly the subscriptions. -/
theorem refines_after (history : List Call) : Refines (after history) (subscriptions history) := by
  have hstart : Refines ⟨.empty, []⟩ ⟨[], []⟩ := ⟨rfl, rfl, nofun, List.nodup_nil⟩
  unfold after subscriptions
  generalize (⟨.empty, []⟩ : Service) = s at hstart ⊢
  generalize (⟨[], []⟩ : Subscriptions) = r at hstart ⊢
  induction history generalizing s r with
  | nil => exact hstart
  | cons call rest ih => exact ih (s.perform call) (r.perform call) (hstart.perform call)

variable {history : List Call}

/-- The listeners of an event name are the subscriptions of that transaction. -/
theorem listeners_after (history : List Call) (transactionId : String) :
    (after history).events.listeners transactionId = subscribed history transactionId := by
  rw [Js.EventEmitter.listeners, (refines_after history).live, subscribed]

/-- No subscription is listed twice. -/
theorem nodup_subscribed (history : List Call) (transactionId : String) :
    (subscribed history transactionId).Nodup :=
  (refines_after history).nodup.sublist (List.filter_sublist.map Prod.snd)

/-- A subscription is one of the transaction that it was made for. -/
theorem issued_of_mem_subscribed {transactionId : String} {k : Nat}
    (h : k ∈ subscribed history transactionId) :
    (after history).issued[k]? = some transactionId := by
  obtain ⟨entry, hentry, rfl⟩ := List.mem_map.mp h
  obtain ⟨hlive, hid⟩ := List.mem_filter.mp hentry
  rw [(refines_after history).issued, (refines_after history).known entry hlive,
    of_decide_eq_true hid]

/-- No subscription belongs to two transactions. -/
theorem subscribed_disjoint {a b : String} {k : Nat} (ha : k ∈ subscribed history a)
    (hb : k ∈ subscribed history b) : a = b :=
  Option.some.inj ((issued_of_mem_subscribed ha).symm.trans (issued_of_mem_subscribed hb))

/-! ### Each kind of call -/

/-- The calls for an event name are those of the subscriptions of that transaction. -/
theorem calls_after (history : List Call) (name : String) (argument : ListenerArgument) :
    (after history).events.calls name argument =
      (subscribed history name).map fun k ↦ (k, argument) := by
  rw [Js.EventEmitter.calls, listeners_after]

/-- An event reaches its listeners unless it is the event `error` and nobody listens. -/
theorem delivers_publish_iff (history : List Call) (event : RealtimeTransactionEvent) :
    Delivers history event (publishRealtimeEvent event (after history).events) ↔
      Heard history event.transactionId := by
  rw [publishRealtimeEvent, Js.EventEmitter.emit, listeners_after, calls_after]
  constructor
  · rintro ⟨hcalled, -⟩ herror hnone
    rw [← herror] at hnone
    rw [if_pos ⟨herror, hnone⟩] at hcalled
    cases hcalled
  · intro hheard
    refine ⟨if_neg ?_, nodup_subscribed history event.transactionId⟩
    rintro ⟨herror, hnone⟩
    exact hheard herror (herror ▸ hnone)

/-- Subscribing calls the listeners of `newListener`. -/
theorem isolated_subscribe_iff (runtime : Runtime) (history : List Call) (transactionId : String) :
    Isolated runtime history (.subscribe transactionId) ↔
      Permitted runtime history (.subscribe transactionId) := by
  simp only [Isolated, Permitted, subscribeToTransaction, Js.EventEmitter.mem_calls,
    listeners_after]
  constructor
  · intro h
    rcases hlisteners : subscribed history "newListener" with - | ⟨k, rest⟩
    · exact .inr rfl
    · have hk : k ∈ subscribed history "newListener" := hlisteners ▸ List.mem_cons_self
      exact .inl (subscribed_disjoint (h (k, _) ⟨hk, rfl⟩) hk)
  · rintro (rfl | hnone) call ⟨hk, -⟩
    · exact hk
    · rw [hnone] at hk
      cases hk

/-- The listeners of another name stay when a subscription is cancelled. -/
theorem listeners_off {transactionId name : String} {k : Nat} (hne : transactionId ≠ name) :
    ((after history).events.off transactionId k).listeners name = subscribed history name := by
  have hregistered : (after history).events.registered.Nodup := by
    rw [(refines_after history).live]
    exact (refines_after history).nodup.of_map
  rw [← listeners_after, Js.EventEmitter.listeners, Js.EventEmitter.listeners,
    Js.EventEmitter.off_eq_filter hregistered, List.filter_filter]
  refine congrArg (List.map Prod.snd) (List.filter_congr fun entry _ ↦ ?_)
  by_cases hname : entry.1 = name
  · have hother : entry ≠ (transactionId, k) := fun heq ↦
      hne ((congrArg Prod.fst heq).symm.trans hname)
    simp [hname, hother]
  · simp [hname]

/-- Whom cancelling a subscription calls. -/
theorem mem_called_unsubscribe {transactionId : String} {k : Nat} {call : Nat × ListenerArgument}
    (hne : transactionId ≠ "removeListener") :
    call ∈ (unsubscribe transactionId k (after history).events).1 ↔
      k ∈ subscribed history transactionId ∧ call.1 ∈ subscribed history "removeListener" ∧
        call.2 = .name transactionId := by
  have hmem : (transactionId, k) ∈ (after history).events.registered ↔
      k ∈ subscribed history transactionId := by
    rw [(refines_after history).live, subscribed, List.mem_map]
    constructor
    · intro h
      exact ⟨(transactionId, k), List.mem_filter.mpr ⟨h, decide_eq_true rfl⟩, rfl⟩
    · rintro ⟨entry, hentry, rfl⟩
      obtain ⟨hlive, hid⟩ := List.mem_filter.mp hentry
      rw [← of_decide_eq_true hid]
      exact hlive
  simp only [unsubscribe, hmem]
  split
  · next hk => rw [Js.EventEmitter.mem_calls, listeners_off hne, and_iff_right hk]
  · next hk => simp [hk]

/-- Cancelling a subscription calls the listeners of `removeListener`. -/
theorem isolated_unsubscribe_iff (runtime : Runtime) (history : List Call) (k : Nat) :
    Isolated runtime history (.unsubscribe k) ↔ Permitted runtime history (.unsubscribe k) := by
  simp only [Isolated, Permitted]
  constructor
  · intro h transactionId hk
    by_cases hne : transactionId = "removeListener"
    · exact .inl hne
    · have hcalled := h transactionId (issued_of_mem_subscribed hk)
      rcases hlisteners : subscribed history "removeListener" with - | ⟨l, rest⟩
      · exact .inr rfl
      · have hl : l ∈ subscribed history "removeListener" := hlisteners ▸ List.mem_cons_self
        have hcall := hcalled (l, _) ((mem_called_unsubscribe hne).mpr ⟨hk, hl, rfl⟩)
        exact .inl (subscribed_disjoint hcall hl)
  · intro h transactionId hissued call hl
    by_cases hne : transactionId = "removeListener"
    · subst hne
      simp only [unsubscribe] at hl
      split at hl
      · rw [← listeners_after]
        have hsub : ((after history).events.off "removeListener" k).registered.Sublist
            (after history).events.registered := by
          rw [← List.reverse_sublist]
          simp only [Js.EventEmitter.off, List.reverse_reverse]
          exact List.erase_sublist
        exact ((hsub.filter _).map Prod.snd).subset (Js.EventEmitter.mem_calls.mp hl).1
      · cases hl
    · obtain ⟨hk, hcall, -⟩ := (mem_called_unsubscribe hne).mp hl
      rcases h transactionId hk with heq | hnone
      · exact absurd heq hne
      · rw [hnone] at hcall
        cases hcall

/-! ### All calls -/

/-- After any calls of the service, the next one is isolated if and only if it stays clear of the
names that the emitter reserves: no event for `error` while nobody listens to it, no subscription
to another transaction while somebody listens to `newListener`, and no end of one while somebody
listens to `removeListener`. -/
theorem isolated_iff (runtime : Runtime) (history : List Call) (call : Call) :
    Isolated runtime history call ↔ Permitted runtime history call := by
  cases call with
  | subscribe transactionId => exact isolated_subscribe_iff runtime history transactionId
  | unsubscribe k => exact isolated_unsubscribe_iff runtime history k
  | publish event => exact delivers_publish_iff history event
  | post body =>
    refine forall₂_congr fun input hinput ↦ ?_
    refine Iff.trans ?_ (delivers_publish_iff history (pendingEvent input))
    rw [postTransaction_of_valid hinput]
    constructor
    · rintro ⟨called, hpost, hdelivers⟩
      obtain ⟨called', hcalled, heq⟩ := Option.map_eq_some_iff.mp hpost
      cases heq
      rw [hcalled]
      exact hdelivers
    · intro hdelivers
      rw [hdelivers.1]
      exact ⟨_, rfl, rfl, hdelivers.2⟩
  | eachMessage value =>
    refine forall₄_congr fun rawValue event hvalue hraw ↦ forall_congr' fun hdecode ↦ ?_
    refine Iff.trans ?_ (delivers_publish_iff history (RealtimeConsumer.realtimeEvent event))
    simp only [RealtimeConsumer.eachMessage, hvalue, if_neg hraw, hdecode]
    exact Iff.rfl

/-! ### The event `error` -/

/-- A valid body whose transactionId is `error`. -/
def errorBody : Json :=
  .obj [("transactionId", .str "error"),
    ("accountId", .str "550e8400-e29b-41d4-a716-446655440000"), ("type", .str "DEBIT"),
    ("amountMinor", .str "10"), ("deviceFingerprint", .str "device-1")]

/-- The body is accepted, and publishing its pending event throws, so that the request never reaches
the engine. -/
theorem error_not_isolated : ∃ input,
    createTransactionSchema (some errorBody) = some input ∧ input.transactionId = "error" ∧
      postTransaction (some errorBody) (after []).events = none ∧
      ∀ runtime, ¬ Isolated runtime [] (.post (some errorBody)) := by
  have hparsed : (createTransactionSchema (some errorBody)).map (·.transactionId) =
      some "error" := by decide +kernel
  obtain ⟨input, hinput, hid⟩ := Option.map_eq_some_iff.mp hparsed
  have hthrows : postTransaction (some errorBody) (after []).events = none := by
    have hpublish : publishRealtimeEvent (pendingEvent input) (after []).events = none := by
      rw [publishRealtimeEvent, pendingEvent, hid]
      exact if_pos ⟨rfl, rfl⟩
    rw [postTransaction_of_valid hinput, hpublish, Option.map_none]
  refine ⟨input, hinput, hid, hthrows, fun runtime hisolated ↦ ?_⟩
  obtain ⟨called, hpost, -⟩ := hisolated input hinput
  rw [hthrows] at hpost
  cases hpost

end Banking.Realtime
