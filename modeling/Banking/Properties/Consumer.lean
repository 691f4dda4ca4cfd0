import Banking.Properties.DeadLetters

/-!
# Which messages a consumer drops

A call of `eachMessage` acknowledges its message by resolving. A call that enters the retry loop
resolves only after `onEvent` completed or the message was sent to the dead-letter queue, as text:
bytes that encode no text are lost there. A call made after the signal resolves without either.
-/

namespace Banking.Consumer

open Js (Date)

variable {w : Worker} {s s' : State}

/-- The event is the one in the message: its value is the text of a JSON that the schema parses to
the event. -/
def Contains (w : Worker) (value : Option Bytes) (event : TransactionEvent) : Prop :=
  ∃ bytes json, value = some bytes ∧ w.runtime.parse (w.runtime.toString bytes) = .ok json ∧
    transactionEventSchema (some json) = some event

/-- The dead letter carries the value: a text with these bytes, or `null` for no value. -/
def Carries (letter : DlqMessage) : Option Bytes → Prop
  | none => letter.originalValue = some .null
  | some bytes => ∃ text, letter.originalValue = some (.str text) ∧ utf8 text = bytes

/-- Call `k` has completed the event of its message, or has sent to the dead-letter queue a record
that carries the message's value. -/
def Settled (w : Worker) (effects : List Effect) (k : Nat) (d : Delivery) : Prop :=
  (∃ event, Contains w d.payload.value event ∧ .completed k event ∈ effects) ∨
    ∃ letter, .deadLettered k letter ∈ effects ∧ letter.topic = bankingTransactionDlqTopic ∧
      Carries letter d.payload.value

/-- Every message that was acknowledged is settled. -/
def NothingDropped (w : Worker) (s : State) : Prop :=
  ∀ k d, s.deliveries[k]? = some d → d.retry = .resolved → Settled w s.effects k d

/-- `eachMessage` is not called after the signal, and no message whose value is the encoding of no
text is given up on and acknowledged. -/
def Harmless (s : State) : Action → Prop
  | .eachMessage _ => s.shuttingDown = false ∨ s.stopped = true
  | .published k _ none _ => ∀ d lastError, s.deliveries[k]? = some d →
      d.retry = .publishing lastError → ∀ value, d.payload.value = some value → IsUtf8 value
  | _ => True

/-! ### What settles a message -/

/-- More effects settle no less. -/
theorem Settled.mono {effects effects' : List Effect} {k : Nat} {d : Delivery}
    (h : Settled w effects k d) (hsub : effects ⊆ effects') : Settled w effects' k d := by
  rcases h with ⟨event, hcontains, hmem⟩ | ⟨letter, hmem, hletter⟩
  · exact .inl ⟨event, hcontains, hsub hmem⟩
  · exact .inr ⟨letter, hsub hmem, hletter⟩

/-- Whether a message is settled does not depend on where its call is. -/
theorem Settled.congr {effects : List Effect} {k : Nat} {d d' : Delivery}
    (h : Settled w effects k d) (hpayload : d'.payload = d.payload) :
    Settled w effects k d' := by
  unfold Settled
  rw [hpayload]
  exact h

/-- What is decoded from a message is in it. -/
theorem contains_of_decode {payload : EachMessagePayload} {event : TransactionEvent}
    (h : decodeTransactionEvent w payload = .ok event) : Contains w payload.value event := by
  obtain ⟨topic, partition, offset, key, value⟩ := payload
  cases value with
  | none => cases h
  | some bytes =>
    simp only [decodeTransactionEvent, rawValue, Option.map_some] at h
    split at h
    · cases h
    · cases hparse : w.runtime.parse (w.runtime.toString bytes) with
      | error error =>
        rw [hparse] at h
        cases h
      | ok json =>
        simp only [hparse, bind, Except.bind] at h
        split at h
        · next event' hschema =>
          cases h
          exact ⟨bytes, json, rfl, hparse, hschema⟩
        · cases h

/-- The dead letter of a message carries its value if and only if the value, if any, is the encoding
of a text. -/
theorem carries_dlqMessage_iff (hutf8 : ∀ text, w.runtime.toString (utf8 text) = text)
    (payload : EachMessagePayload) (error : String) (attempts : Nat) (failedAt : Date) :
    Carries (dlqMessage w payload error attempts failedAt) payload.value ↔
      ∀ value, payload.value = some value → IsUtf8 value := by
  have horiginal : (dlqMessage w payload error attempts failedAt).originalValue =
      some (originalValue w payload) := rfl
  unfold Carries
  rw [horiginal]
  unfold originalValue rawValue
  cases payload.value with
  | none => simp
  | some value => simp [← utf8_toString_iff hutf8]

/-! ### Calls and their effects -/

/-- A step completes no event but that of a call that it resolves. -/
theorem completed_step {a : Action} (hstep : step w s a = some s') {k : Nat}
    {event : TransactionEvent} (hmem : .completed k event ∈ s'.effects) :
    .completed k event ∈ s.effects ∨
      ∃ d, s'.deliveries[k]? = some d ∧ d.retry = .resolved := by
  cases a with
  | signal =>
    cases hstep
    exact .inl hmem
  | stop =>
    simp only [step] at hstep
    split at hstep
    · cases hstep
      exact .inl hmem
    · cases hstep
  | eachMessage payload =>
    simp only [step] at hstep
    split at hstep
    · cases hstep
    · cases hstep
      exact .inl hmem
  | handler j error =>
    simp only [step] at hstep
    split at hstep
    · next d hd =>
      split at hstep
      · split at hstep
        · cases hstep
          exact .inl hmem
        · cases hstep
          exact .inl hmem
        · cases hstep
          rcases List.mem_append.mp hmem with hold | hnew
          · exact .inl hold
          · cases List.mem_singleton.mp hnew
            exact .inr ⟨_, List.getElem?_set_self (List.getElem?_eq_some_iff.mp hd).1, rfl⟩
      · cases hstep
    · cases hstep
  | wake j =>
    simp only [step] at hstep
    split at hstep
    · split at hstep
      · cases hstep
        exact .inl hmem
      · cases hstep
    · cases hstep
  | published j failedAt error delivered =>
    simp only [step] at hstep
    -- a send to the dead-letter queue completes no event
    have hsent : ∀ {letter : DlqMessage}, .completed k event ∈
        (s.record (.deadLettered j letter)).effects → .completed k event ∈ s.effects := by
      intro letter hmem
      rcases List.mem_append.mp hmem with hold | hnew
      · exact hold
      · cases List.mem_singleton.mp hnew
    split at hstep
    · split at hstep
      · split at hstep
        · cases hstep
          exact .inl (hsent hmem)
        · cases hstep
          cases delivered
          · exact .inl hmem
          · exact .inl (hsent hmem)
      · cases hstep
    · cases hstep

/-- A resolved call stays resolved. -/
theorem resolved_step {a : Action} (hstep : step w s a = some s') {k : Nat} {d : Delivery}
    (hd : s.deliveries[k]? = some d) (hresolved : d.retry = .resolved) :
    s'.deliveries[k]? = some d := by
  rcases turn_of_step hstep hd with hsame | ⟨o, effect, retry, hturn, -⟩
  · exact hsame
  · rw [hresolved] at hturn
    cases hturn

/-- In every run a call that completed its event has resolved. -/
theorem resolved_of_completed (h : Runs w .initial s) {k : Nat} {event : TransactionEvent}
    (hmem : .completed k event ∈ s.effects) :
    ∃ d, s.deliveries[k]? = some d ∧ d.retry = .resolved := by
  refine Relational.Steps.invariant (P := fun s ↦ .completed k event ∈ s.effects →
    ∃ d, s.deliveries[k]? = some d ∧ d.retry = .resolved) (fun t a t' hstep ht hmem ↦ ?_) h nofun
    hmem
  rcases completed_step hstep hmem with hold | hnew
  · obtain ⟨d, hd, hresolved⟩ := ht hold
    exact ⟨d, resolved_step hstep hd hresolved, hresolved⟩
  · exact hnew

/-! ### What a step settles -/

/-- The head of the loop does not acknowledge. -/
theorem loop_ne_resolved (n attempt : Nat) (lastError : Option String) :
    Retry.loop n attempt lastError ≠ .resolved := by
  unfold Retry.loop
  split <;> exact nofun

/-- A failed attempt does not acknowledge. -/
theorem failed_ne_resolved (n attempt : Nat) (error : String) :
    Retry.failed w n attempt error ≠ .resolved := by
  unfold Retry.failed
  split <;> exact nofun

namespace NothingDropped

/-- A call goes on; if it resolves, its message is settled. -/
theorem setRetry (h : NothingDropped w s) {k : Nat} {d : Delivery} {retry : Retry}
    (hretry : retry = .resolved → Settled w s.effects k d) :
    NothingDropped w (s.setRetry k d retry) := by
  intro j d' hj hresolved
  have hset : (s.deliveries.set k { d with retry })[j]? = some d' := hj
  rw [List.getElem?_set] at hset
  split at hset
  · next hjk =>
    subst hjk
    split at hset
    · cases hset
      exact (hretry hresolved).congr rfl
    · cases hset
  · exact h j d' hset hresolved

/-- A call has an effect. -/
theorem record (h : NothingDropped w s) (effect : Effect) : NothingDropped w (s.record effect) :=
  fun k d hk hresolved ↦ (h k d hk hresolved).mono (List.subset_append_left _ _)

/-- A call begins that does not resolve at once. -/
theorem eachMessage (h : NothingDropped w s) (payload : EachMessagePayload) {retry : Retry}
    (hretry : retry ≠ .resolved) :
    NothingDropped w { s with deliveries := s.deliveries ++ [⟨payload, retry⟩] } := by
  intro k d hk hresolved
  have happend : (s.deliveries ++ [⟨payload, retry⟩])[k]? = some d := hk
  rcases Nat.lt_or_ge k s.deliveries.length with hlt | hge
  · rw [List.getElem?_append_left hlt] at happend
    exact h k d happend hresolved
  · rw [List.getElem?_append_right hge] at happend
    obtain rfl := List.mem_singleton.mp (List.mem_of_getElem? happend)
    exact absurd hresolved hretry

end NothingDropped

/-- Every harmless step settles what it acknowledges. -/
theorem nothingDropped_step (hutf8 : ∀ text, w.runtime.toString (utf8 text) = text) {a : Action}
    (hharmless : Harmless s a) (hstep : step w s a = some s') (h : NothingDropped w s) :
    NothingDropped w s' := by
  cases a with
  | signal =>
    cases hstep
    exact h
  | stop =>
    simp only [step] at hstep
    split at hstep
    · cases hstep
      exact h
    · cases hstep
  | eachMessage payload =>
    simp only [step] at hstep
    split at hstep
    · cases hstep
    · next hstopped =>
      have hrunning : s.shuttingDown = false := hharmless.resolve_right hstopped
      cases hstep
      apply h.eachMessage payload
      rw [hrunning, if_neg Bool.false_ne_true]
      exact loop_ne_resolved _ _ _
  | handler k error =>
    simp only [step] at hstep
    split at hstep
    · next d hk =>
      split at hstep
      · next attempt hretry =>
        split at hstep
        · cases hstep
          exact h.setRetry fun hr ↦ absurd hr (failed_ne_resolved _ _ _)
        · cases hstep
          exact h.setRetry fun hr ↦ absurd hr (failed_ne_resolved _ _ _)
        · next event hdecode =>
          cases hstep
          exact (h.record (.completed k event)).setRetry fun _ ↦ .inl
            ⟨event, contains_of_decode hdecode,
              List.mem_append_right _ (List.mem_singleton.mpr rfl)⟩
      · cases hstep
    · cases hstep
  | wake k =>
    simp only [step] at hstep
    split at hstep
    · next d hk =>
      split at hstep
      · cases hstep
        exact h.setRetry fun hr ↦ absurd hr (loop_ne_resolved _ _ _)
      · cases hstep
    · cases hstep
  | published k failedAt error delivered =>
    simp only [step] at hstep
    split at hstep
    · next d hk =>
      split at hstep
      · next lastError hretry =>
        split at hstep
        · cases hstep
          have hcarries := (carries_dlqMessage_iff hutf8 d.payload (lastError.getD "undefined")
            (maxAttempts w) failedAt).mpr (hharmless d lastError hk hretry)
          exact (h.record _).setRetry fun _ ↦ .inr
            ⟨_, List.mem_append_right _ (List.mem_singleton.mpr rfl), rfl, hcarries⟩
        · cases hstep
          split
          · exact (h.record _).setRetry fun hr ↦ by cases hr
          · exact h.setRetry fun hr ↦ by cases hr
      · cases hstep
    · cases hstep

/-- Every other step drops a message. -/
theorem dropped_of_not_harmless (hutf8 : ∀ text, w.runtime.toString (utf8 text) = text)
    {a : Action} (hharmless : ¬ Harmless s a) (h : Runs w .initial s) :
    ∃ s', step w s a = some s' ∧ ¬ NothingDropped w s' := by
  cases a with
  | eachMessage payload =>
    have hflags : s.shuttingDown = true ∧ s.stopped = false := by simpa [Harmless] using hharmless
    refine ⟨{ s with deliveries := s.deliveries ++ [⟨payload, .resolved⟩] },
      by simp [step, hflags.1, hflags.2], fun hdropped ↦ ?_⟩
    have hsettled := hdropped s.deliveries.length ⟨payload, .resolved⟩ (by simp) rfl
    -- no effect belongs to the new call
    have hnew : ∀ d, s.deliveries[s.deliveries.length]? ≠ some d := by simp
    rcases hsettled with ⟨event, -, hmem⟩ | ⟨letter, hmem, -⟩
    · obtain ⟨d, hd, -⟩ := resolved_of_completed h hmem
      exact hnew d hd
    · obtain ⟨d, -, -, hd, -⟩ := deadLettered h _ letter hmem
      exact hnew d hd
  | published k failedAt error delivered =>
    cases error with
    | some error => exact absurd trivial hharmless
    | none =>
      simp only [Harmless, not_forall] at hharmless
      obtain ⟨d, lastError, hd, hretry, hvalue⟩ := hharmless
      have hstep : step w s (.published k failedAt none delivered) =
          some ((s.record (.deadLettered k (dlqMessage w d.payload (lastError.getD "undefined")
            (maxAttempts w) failedAt))).setRetry k d .resolved) := by
        simp [step, hd, hretry]
      refine ⟨_, hstep, fun hdropped ↦ ?_⟩
      have hnext := List.getElem?_set_self (a := { d with retry := .resolved })
        (List.getElem?_eq_some_iff.mp hd).1
      rcases hdropped k _ hnext rfl with ⟨event, -, hmem⟩ | ⟨letter, hmem, -, hcarries⟩
      · -- the call would have resolved before
        rcases List.mem_append.mp hmem with hold | hnew
        · obtain ⟨d', hd', hresolved⟩ := resolved_of_completed h hold
          cases hd.symm.trans hd'
          cases hretry.symm.trans hresolved
        · cases List.mem_singleton.mp hnew
      · -- every record of the call has the decoded value
        have hrun : Runs w .initial _ := Relation.ReflTransGen.tail h ⟨_, hstep⟩
        obtain ⟨d', error, failedAt', hd', rfl⟩ := deadLettered hrun k letter hmem
        cases hnext.symm.trans hd'
        have hencoded := (carries_dlqMessage_iff hutf8 d.payload error (maxAttempts w)
          failedAt').mp hcarries
        obtain ⟨value, hvalue, hnot⟩ := hvalue
        exact hnot (hencoded value hvalue)
  | signal => exact absurd trivial hharmless
  | stop => exact absurd trivial hharmless
  | handler k error => exact absurd trivial hharmless
  | wake k => exact absurd trivial hharmless

/-- In a run no acknowledged message is dropped if and only if `eachMessage` is never called
after the signal and no message whose value is the encoding of no text is given up on. -/
theorem nothing_dropped_iff (hutf8 : ∀ text, w.runtime.toString (utf8 text) = text)
    (actions : List Action) :
    Relational.Throughout (step w) (NothingDropped w) .initial actions ↔
      Relational.Meets (step w) Harmless .initial actions :=
  Relational.throughout_iff_meets (I := fun s ↦ Runs w .initial s ∧ NothingDropped w s)
    (fun _ h ↦ h.2)
    (fun _ _ _ hharmless hstep h ↦
      ⟨Relation.ReflTransGen.tail h.1 ⟨_, hstep⟩, nothingDropped_step hutf8 hharmless hstep h.2⟩)
    (fun _ _ hharmless h ↦ dropped_of_not_harmless hutf8 hharmless h.1)
    ⟨Relation.ReflTransGen.refl, nofun⟩ actions

/-! ### Three runs -/

open DeadLetterSample

/-- The byte is the encoding of no text. -/
theorem not_isUtf8_byte : ¬ IsUtf8 [255] := by
  rintro ⟨text, htext⟩
  -- a text would be the replacement character, whose encoding has three bytes
  have hlength := congrArg (fun bytes ↦ (utf8 (toString bytes)).length) htext
  rw [toString_utf8, htext] at hlength
  exact absurd hlength (by decide)

/-- The message cannot be decoded. -/
theorem decode_byte :
    decodeTransactionEvent worker (payload none (some [255])) = .error noJson := by
  have hraw : rawValue worker (payload none (some [255])) = some "\uFFFD" := rfl
  have hlength : "\uFFFD".length < 19 := by decide
  have hparse : worker.runtime.parse "\uFFFD" = .error noJson := parse_of_length hlength
  have hne : "\uFFFD" ≠ "" := by decide
  simp only [decodeTransactionEvent, hraw, if_neg hne, hparse]
  rfl

/-- A message handed over after the signal is acknowledged and neither handled nor sent to the
dead-letter queue; and a message of the byte 255 is acknowledged with a record of another value. -/
theorem message_dropped_after_signal : (∀ text, worker.runtime.toString (utf8 text) = text) ∧
    (∃ s, Relational.execute (step worker) .initial
        [.signal, .eachMessage (payload none (some (utf8 "\x7b\x7d")))] = some s ∧
      ¬ NothingDropped worker s) ∧
    ∃ s, Relational.execute (step worker) .initial (actions (payload none (some [255]))) = some s ∧
      ¬ NothingDropped worker s := by
  refine ⟨toString_utf8, ⟨⟨true, false, [⟨_, .resolved⟩], []⟩, rfl, fun h ↦ ?_⟩,
    _, execute_actions decode_byte, fun h ↦ ?_⟩
  · rcases h 0 _ rfl rfl with ⟨event, -, hmem⟩ | ⟨letter, hmem, -⟩
    · cases hmem
    · cases hmem
  · rcases h 0 _ rfl rfl with ⟨event, -, hmem⟩ | ⟨letter, hmem, -, hcarries⟩
    · cases List.mem_singleton.mp hmem
    · cases List.mem_singleton.mp hmem
      exact not_isUtf8_byte ((carries_dlqMessage_iff toString_utf8 _ _ _ _).mp hcarries _ rfl)

/-- The run in which a message that is no JSON is sent to the dead-letter queue and the worker then
stops drops nothing. -/
theorem nothing_dropped_iff_pay : Relational.Throughout (step worker) (NothingDropped worker)
    .initial (actions (payload (some (utf8 "acc-1")) (some (utf8 "pay"))) ++ [.signal, .stop]) := by
  refine (nothing_dropped_iff toString_utf8 _).mpr ⟨.inl rfl, fun s hs ↦ ⟨trivial, fun t ht ↦
    ⟨fun d lastError hd _ value hvalue ↦ ⟨"pay", ?_⟩, fun u _ ↦ ⟨trivial, fun v _ ↦
      ⟨trivial, fun _ _ ↦ trivial⟩⟩⟩⟩⟩
  cases hs
  obtain ⟨d', hd', hpayload⟩ := payload_step ht (k := 0) rfl
  cases hd.symm.trans hd'
  rw [hpayload] at hvalue
  exact Option.some.inj hvalue

end Banking.Consumer
