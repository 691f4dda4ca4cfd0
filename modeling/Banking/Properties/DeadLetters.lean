import Banking.Properties.Retry
import Banking.Scripts.ReprocessDlq

/-!
# Dead letters and their reprocessing

The dead letter of a message holds its key and its value as text. The reprocessing script sends the
same bytes again if they are the encoding of a text; other bytes come back with replacement
characters, and a message without a value makes the script throw.
-/

namespace Banking.Consumer

open Js (Date)

variable {w : Worker} {s s' : State}

/-! ### Dead letters of a run -/

/-- Every dead letter is that of the message of its call. -/
def DeadLettered (w : Worker) (s : State) : Prop :=
  ∀ k message, .deadLettered k message ∈ s.effects → ∃ d error failedAt,
    s.deliveries[k]? = some d ∧ message = dlqMessage w d.payload error (maxAttempts w) failedAt

/-- A step keeps the message of every call. -/
theorem payload_step {a : Action} (hstep : step w s a = some s') {k : Nat} {d : Delivery}
    (hd : s.deliveries[k]? = some d) :
    ∃ d', s'.deliveries[k]? = some d' ∧ d'.payload = d.payload := by
  rcases turn_of_step hstep hd with hsame | ⟨-, -, retry, -, hturn⟩
  · exact ⟨d, hsame, rfl⟩
  · exact ⟨_, hturn, rfl⟩

/-- A step adds no dead letter but that of the message of a call. -/
theorem deadLetters_step {a : Action} (hstep : step w s a = some s') {k : Nat}
    {message : DlqMessage} (hmem : .deadLettered k message ∈ s'.effects) :
    .deadLettered k message ∈ s.effects ∨ ∃ d error failedAt, s.deliveries[k]? = some d ∧
      message = dlqMessage w d.payload error (maxAttempts w) failedAt := by
  have hnew : ∀ {effect : Effect}, .deadLettered k message ∈ (s.record effect).effects →
      .deadLettered k message ∈ s.effects ∨ .deadLettered k message = effect := by
    intro effect hmem
    rcases List.mem_append.mp hmem with hold | hnew
    · exact .inl hold
    · exact .inr (List.mem_singleton.mp hnew)
  cases a with
  | signal =>
    cases hstep
    exact .inl hmem
  | stop =>
    simp only [step] at hstep
    split at hstep
    · cases hstep
      exact .inl hmem
    · cases hstep
  | eachMessage payload =>
    simp only [step] at hstep
    split at hstep
    · cases hstep
    · cases hstep
      exact .inl hmem
  | handler j error =>
    simp only [step] at hstep
    split at hstep
    · split at hstep
      · split at hstep
        · cases hstep
          exact .inl hmem
        · cases hstep
          exact .inl hmem
        · cases hstep
          rcases hnew hmem with hold | hcompleted
          · exact .inl hold
          · cases hcompleted
      · cases hstep
    · cases hstep
  | wake j =>
    simp only [step] at hstep
    split at hstep
    · split at hstep
      · cases hstep
        exact .inl hmem
      · cases hstep
    · cases hstep
  | published j failedAt error delivered =>
    simp only [step] at hstep
    split at hstep
    · next d hd =>
      split at hstep
      · next lastError hretry =>
        -- the send is recorded if Kafka has the message
        have hsent : .deadLettered k message ∈ (s.record (.deadLettered j (dlqMessage w d.payload
            (lastError.getD "undefined") (maxAttempts w) failedAt))).effects →
            .deadLettered k message ∈ s.effects ∨ ∃ d error failedAt, s.deliveries[k]? = some d ∧
              message = dlqMessage w d.payload error (maxAttempts w) failedAt := by
          intro hmem
          rcases hnew hmem with hold | hletter
          · exact .inl hold
          · cases hletter
            exact .inr ⟨d, _, failedAt, hd, rfl⟩
        split at hstep
        · cases hstep
          exact hsent hmem
        · cases hstep
          cases delivered
          · exact .inl hmem
          · exact hsent hmem
      · cases hstep
    · cases hstep

/-- In every run a dead letter is that of the message of its call. -/
theorem deadLettered (h : Runs w .initial s) : DeadLettered w s := by
  refine Relational.Steps.invariant (P := DeadLettered w) (fun t a t' hstep ht ↦ ?_) h ?_
  · intro k message hmem
    have hkept : (∃ d error failedAt, t.deliveries[k]? = some d ∧
        message = dlqMessage w d.payload error (maxAttempts w) failedAt) →
        ∃ d error failedAt, t'.deliveries[k]? = some d ∧
          message = dlqMessage w d.payload error (maxAttempts w) failedAt := by
      rintro ⟨d, error, failedAt, hd, rfl⟩
      obtain ⟨d', hd', hpayload⟩ := payload_step hstep hd
      exact ⟨d', error, failedAt, hd', by rw [hpayload]⟩
    rcases deadLetters_step hstep hmem with hold | hnew
    · exact hkept (ht k message hold)
    · exact hkept hnew
  · intro k message hmem
    cases hmem

/-! ### Sending the message again -/

/-- A buffer comes back from its decoding if and only if it is the encoding of a text. -/
theorem utf8_toString_iff {toString : Bytes → String} (hutf8 : ∀ text, toString (utf8 text) = text)
    {bytes : Bytes} : utf8 (toString bytes) = bytes ↔ IsUtf8 bytes := by
  constructor
  · intro h
    exact ⟨toString bytes, h⟩
  · rintro ⟨text, rfl⟩
    rw [hutf8]

/-- What the script makes of a dead letter: it decodes the key once more, takes the value from
`originalValue`, and throws without a value. -/
theorem reprocessed_stored {runtime : Runtime} (hutf8 : ∀ text, runtime.toString (utf8 text) = text)
    {message : DlqMessage} {text : String} (htext : text ≠ "")
    (hparse : runtime.parse text = .ok message.value) :
    reprocessed runtime (message.stored text) = (do
      match ← originalValueOf message.value with
      | some (.str originalValue) =>
        return ⟨bankingTransactionTopic, message.key.map utf8, some (utf8 originalValue)⟩
      | _ => throw "DLQ message does not contain originalValue") := by
  have hkey : (message.stored text).key.map runtime.toString = message.key := by
    rw [DlqMessage.stored, Option.map_map]
    exact (Option.map_congr fun key _ ↦ hutf8 key).trans Option.map_id'
  unfold reprocessed
  rw [hkey]
  simp only [DlqMessage.stored, Option.map_some, hutf8, if_neg htext, hparse]
  rfl

/-- The dead letter of a message with a value gives the bytes of its decoded key and value. -/
theorem reprocessed_dlqMessage (hutf8 : ∀ text, w.runtime.toString (utf8 text) = text)
    {payload : EachMessagePayload} {error : String} {attempts : Nat} {failedAt : Date}
    {text : String} (htext : text ≠ "")
    (hparse : w.runtime.parse text = .ok (dlqMessage w payload error attempts failedAt).value) :
    reprocessed w.runtime ((dlqMessage w payload error attempts failedAt).stored text) =
      match payload.value with
      | none => .error "DLQ message does not contain originalValue"
      | some value => .ok ⟨bankingTransactionTopic,
          payload.key.map fun key ↦ utf8 (w.runtime.toString key),
          some (utf8 (w.runtime.toString value))⟩ := by
  rw [reprocessed_stored hutf8 htext hparse]
  obtain ⟨topic, partition, offset, key, value⟩ := payload
  cases value with
  | none => rfl
  | some value => cases key <;> rfl

/-- In every run, the script sends the key and the value of a dead-lettered message to the main
topic if and only if the message has a value, and its value and its key, if any, are the encodings
of texts. -/
theorem reprocessed_eq_iff (hutf8 : ∀ text, w.runtime.toString (utf8 text) = text)
    (h : Runs w .initial s) {k : Nat} {message : DlqMessage}
    (hdead : .deadLettered k message ∈ s.effects) {text : String} (htext : text ≠ "")
    (hparse : w.runtime.parse text = .ok message.value) :
    ∃ d, s.deliveries[k]? = some d ∧
      (reprocessed w.runtime (message.stored text) =
          .ok ⟨bankingTransactionTopic, d.payload.key, d.payload.value⟩ ↔
        (∃ value, d.payload.value = some value ∧ IsUtf8 value) ∧
          ∀ key, d.payload.key = some key → IsUtf8 key) := by
  obtain ⟨d, error, failedAt, hd, rfl⟩ := deadLettered h k message hdead
  refine ⟨d, hd, ?_⟩
  rw [reprocessed_dlqMessage hutf8 htext hparse]
  cases hvalue : d.payload.value with
  | none => simp
  | some value =>
    have hkey : (d.payload.key.map fun key ↦ utf8 (w.runtime.toString key)) = d.payload.key ↔
        ∀ key, d.payload.key = some key → IsUtf8 key := by
      cases d.payload.key with
      | none => simp
      | some key => simp [utf8_toString_iff hutf8]
    simp [utf8_toString_iff hutf8, hkey, and_comm]

/-! ### Two messages -/

namespace DeadLetterSample

/-- `Buffer.toString`, with one replacement character for a buffer that is not UTF-8. -/
def toString (bytes : Bytes) : String := (String.fromUTF8? ⟨bytes.toArray⟩).getD "\uFFFD"

theorem toString_utf8 (text : String) : toString (utf8 text) = text := by
  have hvalid : (ByteArray.mk (utf8 text).toArray).IsValidUTF8 := text.isValidUTF8
  rw [toString, String.fromUTF8?, dif_pos hvalid]
  rfl

/-- The dead letter of a message that was handled once. -/
def letter (error : String) (originalValue : Json) : Json :=
  .obj [("consumer", .str "ledger"), ("sourceTopic", .str "banking.transaction-events.v1"),
    ("sourcePartition", .num 0), ("sourceOffset", .str "7"),
    ("failedAt", .str (Date.toISOString 0)), ("attempts", .num 1),
    ("error", .str error), ("originalValue", originalValue)]

/-- The text of the dead letter up to its error. -/
def letterHead : String :=
  "\x7b\"consumer\":\"ledger\",\"sourceTopic\":\"banking.transaction-events.v1\"," ++
    "\"sourcePartition\":0,\"sourceOffset\":\"7\"," ++
    "\"failedAt\":\"1970-01-01T00:00:00.000Z\",\"attempts\":1,\"error\":\""

/-- The text of the dead letter. -/
def letterText (error originalValue : String) : String :=
  letterHead ++ (error ++ "\",\"originalValue\":" ++ originalValue ++ "\x7d")

theorem length_letterText (error originalValue : String) :
    (letterText error originalValue).length =
      letterHead.length + error.length + originalValue.length + 19 := by
  have hmiddle : "\",\"originalValue\":".length = 18 := by decide
  have hlast : "\x7d".length = 1 := by decide
  simp only [letterText, String.length_append, hmiddle, hlast]
  omega

theorem letterText_ne_empty (error originalValue : String) :
    letterText error originalValue ≠ "" := by
  intro h
  have hlength := congrArg String.length h
  rw [length_letterText, String.length_empty] at hlength
  omega

/-- Texts of different lengths are different. -/
theorem letterText_ne {error error' value value' : String}
    (h : error.length + value.length ≠ error'.length + value'.length) :
    letterText error value ≠ letterText error' value' := by
  intro heq
  have hlength := congrArg String.length heq
  rw [length_letterText, length_letterText] at hlength
  omega

/-- The error of a message without a value, or with an empty one. -/
def noValue : String := "Kafka message has no value"

/-- The error of a message that is no JSON. -/
def noJson : String := "JSON Parse error"

/-- Three texts parse to their letters, and others do not parse. -/
def parse (text : String) : Except String Json :=
  if text = letterText noValue "null" then .ok (letter noValue .null)
  else if text = letterText noValue "\"\"" then .ok (letter noValue (.str ""))
  else if text = letterText noJson "\"pay\"" then .ok (letter noJson (.str "pay"))
  else .error noJson

theorem parse_null : parse (letterText noValue "null") = .ok (letter noValue .null) := by
  rw [parse, if_pos rfl]

theorem parse_empty : parse (letterText noValue "\"\"") = .ok (letter noValue (.str "")) := by
  rw [parse, if_neg (letterText_ne (by decide)), if_pos rfl]

theorem parse_pay : parse (letterText noJson "\"pay\"") = .ok (letter noJson (.str "pay")) := by
  rw [parse, if_neg (letterText_ne (by decide)), if_neg (letterText_ne (by decide)), if_pos rfl]

theorem parse_of_length {text : String} (h : text.length < 19) :
    parse text = .error noJson := by
  have hne : ∀ error value, text ≠ letterText error value := by
    rintro error value rfl
    rw [length_letterText] at h
    omega
  rw [parse, if_neg (hne _ _), if_neg (hne _ _), if_neg (hne _ _)]

/-- A worker without retries. -/
def worker : Worker := ⟨⟨toString, parse, fun _ ↦ "invalid event"⟩, "ledger", 0, 1000⟩

/-- A message of the main topic. -/
def payload (key value : Option Bytes) : EachMessagePayload :=
  ⟨"banking.transaction-events.v1", 0, "7", key, value⟩

theorem value_dlqMessage (key value : Option Bytes) (error : String) :
    (dlqMessage worker (payload key value) error 1 0).value =
      letter error (originalValue worker (payload key value)) := by
  unfold dlqMessage letter
  simp [worker, payload]

theorem originalValue_utf8 (key : Option Bytes) (text : String) :
    originalValue worker (payload key (some (utf8 text))) = .str text :=
  congrArg Json.str (toString_utf8 text)

theorem parse_dlqMessage_null : worker.runtime.parse (letterText noValue "null") =
    .ok (dlqMessage worker (payload none none) noValue 1 0).value := by
  have hnull : originalValue worker (payload none none) = .null := rfl
  rw [value_dlqMessage, hnull]
  simp only [worker, parse_null]

theorem parse_dlqMessage_empty : worker.runtime.parse (letterText noValue "\"\"") =
    .ok (dlqMessage worker (payload none (some (utf8 ""))) noValue 1 0).value := by
  rw [value_dlqMessage, originalValue_utf8]
  simp only [worker, parse_empty]

theorem parse_dlqMessage_pay : worker.runtime.parse (letterText noJson "\"pay\"") =
    .ok (dlqMessage worker (payload (some (utf8 "acc-1")) (some (utf8 "pay"))) noJson 1
      0).value := by
  rw [value_dlqMessage, originalValue_utf8]
  simp only [worker, parse_pay]

/-- The message is handled once and sent to the dead-letter queue. -/
def actions (payload : EachMessagePayload) : List Action :=
  [.eachMessage payload, .handler 0 none, .published 0 0 none true]

/-- A message that cannot be decoded goes to the dead-letter queue. -/
theorem execute_actions {payload : EachMessagePayload} {error : String}
    (hdecode : decodeTransactionEvent worker payload = .error error) :
    Relational.execute (step worker) .initial (actions payload) =
      some ⟨false, false, [⟨payload, .resolved⟩], [.deadLettered 0 (dlqMessage worker payload error
        1 0)]⟩ := by
  have hloop : Retry.loop (maxAttempts worker) 0 none = .attempting 0 := rfl
  have hfailed : Retry.failed worker (maxAttempts worker) 0 error = .publishing (some error) := rfl
  simp [Relational.execute, actions, step, State.initial, hloop, hdecode, hfailed, State.setRetry,
    State.record]
  rfl

theorem decode_pay : decodeTransactionEvent worker
    (payload (some (utf8 "acc-1")) (some (utf8 "pay"))) = .error noJson := by
  have hraw : rawValue worker (payload (some (utf8 "acc-1")) (some (utf8 "pay"))) = some "pay" :=
    congrArg some (toString_utf8 "pay")
  have hlength : "pay".length < 19 := by decide
  have hparse : worker.runtime.parse "pay" = .error noJson := parse_of_length hlength
  have hne : "pay" ≠ "" := by decide
  simp only [decodeTransactionEvent, hraw, if_neg hne, hparse]
  rfl

end DeadLetterSample

open DeadLetterSample in
/-- A message without a value goes to the dead-letter queue with `originalValue` `null`, on which
the script throws. -/
theorem deadLetter_without_value : (∀ text, worker.runtime.toString (utf8 text) = text) ∧
    ∃ s message, Relational.execute (step worker) .initial (actions (payload none none)) = some s ∧
      .deadLettered 0 message ∈ s.effects ∧
      worker.runtime.parse (letterText noValue "null") = .ok message.value ∧
      reprocessed worker.runtime (message.stored (letterText noValue "null")) =
        .error "DLQ message does not contain originalValue" := by
  refine ⟨toString_utf8, _, _, execute_actions rfl, List.mem_singleton_self _,
    parse_dlqMessage_null, ?_⟩
  exact reprocessed_dlqMessage toString_utf8 (letterText_ne_empty _ _) parse_dlqMessage_null

open DeadLetterSample in
/-- A message with a key and a value comes back. -/
theorem reprocessed_eq_iff_keyed :
    reprocessed worker.runtime ((dlqMessage worker
        (payload (some (utf8 "acc-1")) (some (utf8 "pay"))) noJson 1 0).stored
          (letterText noJson "\"pay\"")) =
      .ok ⟨bankingTransactionTopic, some (utf8 "acc-1"), some (utf8 "pay")⟩ := by
  obtain ⟨d, hd, hiff⟩ := reprocessed_eq_iff toString_utf8
    (Relational.steps_of_execute (execute_actions decode_pay)) (List.mem_singleton_self _)
    (letterText_ne_empty _ _) parse_dlqMessage_pay
  cases hd
  refine hiff.mpr ⟨⟨_, rfl, "pay", rfl⟩, fun key hkey ↦ ⟨"acc-1", ?_⟩⟩
  exact Option.some.inj hkey

end Banking.Consumer
