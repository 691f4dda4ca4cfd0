import Banking.Workers.Retry

/-!
# The contract of the retry loop

The handler is called until it first succeeds or the attempts are used up, with a sleep of
exponential length between two calls; the message goes to the dead-letter queue when every attempt
has failed, and the loop rejects only with a sleep or with that send.
-/

namespace Banking.Consumer

variable {w : Worker} {maxAttempts : Nat} {o : Outcomes}

/-! ### Turns -/

/-- The turns from one point of the loop to another, with their calls. -/
inductive Turns (w : Worker) (maxAttempts : Nat) (o : Outcomes) :
    Retry → List RetryEffect → Retry → Prop
  | refl (retry) : Turns w maxAttempts o retry [] retry
  | snoc {retry effects middle effect last} (h : Turns w maxAttempts o retry effects middle)
      (hturn : middle.turn w maxAttempts o = some (effect, last)) :
      Turns w maxAttempts o retry (effects ++ [effect]) last

private theorem run_of_cons {retry middle : Retry} {effect : RetryEffect} (fuel : Nat)
    (hturn : retry.turn w maxAttempts o = some (effect, middle)) :
    Retry.run w maxAttempts o (fuel + 1) retry =
      (effect :: (Retry.run w maxAttempts o fuel middle).1,
        (Retry.run w maxAttempts o fuel middle).2) := by
  rw [Retry.run, hturn]

private theorem run_append {retry middle : Retry} {effects : List RetryEffect}
    (h : Turns w maxAttempts o retry effects middle) (fuel : Nat) :
    Retry.run w maxAttempts o (effects.length + fuel) retry =
      (effects ++ (Retry.run w maxAttempts o fuel middle).1,
        (Retry.run w maxAttempts o fuel middle).2) := by
  induction h generalizing fuel with
  | refl => simp
  | @snoc effects middle effect last _ hturn ih =>
    rw [List.length_append, List.length_singleton, Nat.add_assoc, Nat.add_comm 1, ih,
      run_of_cons fuel hturn, List.append_assoc, List.singleton_append]

/-- With enough fuel a run takes all the turns to the end. -/
private theorem run_of_turns {retry last : Retry} {effects : List RetryEffect}
    (h : Turns w maxAttempts o retry effects last) (hend : last.turn w maxAttempts o = none)
    {fuel : Nat} (hfuel : effects.length ≤ fuel) :
    Retry.run w maxAttempts o fuel retry = (effects, last) := by
  obtain ⟨rest, rfl⟩ := Nat.exists_eq_add_of_le hfuel
  have hrest : Retry.run w maxAttempts o rest last = ([], last) := by
    cases rest with
    | zero => rfl
    | succ rest => rw [Retry.run, hend]
  rw [run_append h, hrest, List.append_nil]

/-! ### The turns of the process -/

private theorem getElem?_setRetry {s : State} {j k : Nat} {d x : Delivery} (retry : Retry)
    (hx : s.deliveries[j]? = some x) (hd : s.deliveries[k]? = some d) :
    (s.setRetry j x retry).deliveries[k]? = some d ∨
      j = k ∧ x = d ∧ (s.setRetry j x retry).deliveries[k]? = some { d with retry } := by
  by_cases hjk : j = k
  · subst hjk
    obtain rfl := Option.some.inj (hx.symm.trans hd)
    have hlt := (List.getElem?_eq_some_iff.mp hd).1
    exact .inr ⟨rfl, rfl, List.getElem?_set_self hlt⟩
  · exact .inl ((List.getElem?_set_ne hjk).trans hd)

/-- A step of the worker process leaves each call as it is, or takes its next turn, with the
outcome that the step brings. -/
theorem turn_of_step {s s' : State} {a : Action} (hstep : step w s a = some s') {k : Nat}
    {d : Delivery} (hd : s.deliveries[k]? = some d) :
    s'.deliveries[k]? = some d ∨ ∃ o effect retry,
      d.retry.turn w (Consumer.maxAttempts w) o = some (effect, retry) ∧
        s'.deliveries[k]? = some { d with retry } := by
  -- the call whose turn it is, with the outcome of the step
  have key : ∀ {t : State} {j : Nat} {x : Delivery} (retry : Retry) (o : Outcomes)
      (effect : RetryEffect), t.deliveries = s.deliveries → s.deliveries[j]? = some x →
      x.retry.turn w (Consumer.maxAttempts w) o = some (effect, retry) →
      (t.setRetry j x retry).deliveries[k]? = some d ∨ ∃ o effect retry',
        d.retry.turn w (Consumer.maxAttempts w) o = some (effect, retry') ∧
          (t.setRetry j x retry).deliveries[k]? = some { d with retry := retry' } := by
    intro t j x retry o effect hsame hx hturn
    rcases getElem?_setRetry retry (hsame ▸ hx) (hsame ▸ hd) with hold | ⟨rfl, rfl, hnew⟩
    · exact .inl hold
    · exact .inr ⟨o, effect, retry, hturn, hnew⟩
  cases a with
  | signal =>
    cases hstep
    exact .inl hd
  | stop =>
    simp only [step] at hstep
    split at hstep
    · cases hstep
      exact .inl hd
    · cases hstep
  | eachMessage payload =>
    simp only [step] at hstep
    split at hstep
    · cases hstep
    · cases hstep
      exact .inl ((List.getElem?_append_left (List.getElem?_eq_some_iff.mp hd).1).trans hd)
  | handler j error =>
    simp only [step] at hstep
    split at hstep
    · next x hx =>
      split at hstep
      · next attempt hretry =>
        cases hdecode : decodeTransactionEvent w x.payload with
        | error thrown =>
          simp only [hdecode] at hstep
          cases hstep
          refine key _ ⟨fun _ ↦ .error thrown, fun _ ↦ .ok (), .ok ()⟩ .handler rfl hx ?_
          rw [hretry]
          rfl
        | ok event =>
          cases error with
          | some error =>
            simp only [hdecode] at hstep
            cases hstep
            refine key _ ⟨fun _ ↦ .error error, fun _ ↦ .ok (), .ok ()⟩ .handler rfl hx ?_
            rw [hretry]
            rfl
          | none =>
            simp only [hdecode] at hstep
            cases hstep
            refine key _ ⟨fun _ ↦ .ok (), fun _ ↦ .ok (), .ok ()⟩ .handler rfl hx ?_
            rw [hretry]
            rfl
      · cases hstep
    · cases hstep
  | wake j =>
    simp only [step] at hstep
    split at hstep
    · next x hx =>
      split at hstep
      · next attempt milliseconds lastError hretry =>
        cases hstep
        refine key _ ⟨fun _ ↦ .ok (), fun _ ↦ .ok (), .ok ()⟩ (.sleep milliseconds) rfl hx ?_
        rw [hretry]
        rfl
      · cases hstep
    · cases hstep
  | published j failedAt error delivered =>
    simp only [step] at hstep
    split at hstep
    · next x hx =>
      split at hstep
      · next lastError hretry =>
        split at hstep
        · cases hstep
          refine key _ ⟨fun _ ↦ .ok (), fun _ ↦ .ok (), .ok ()⟩
            (.publishDlq lastError (Consumer.maxAttempts w)) rfl hx ?_
          rw [hretry]
          rfl
        · next error =>
          cases hstep
          refine key _ ⟨fun _ ↦ .ok (), fun _ ↦ .ok (), .error error⟩
            (.publishDlq lastError (Consumer.maxAttempts w)) ?_ hx ?_
          · split <;> rfl
          · rw [hretry]
            rfl
      · cases hstep
    · cases hstep

/-! ### Rounds -/

/-- A positive base is doubled beyond a minute before the exponent reaches its cap. -/
theorem retryDelayMs_eq (hbase : 0 < w.CONSUMER_RETRY_BASE_MS) (k : Nat) :
    retryDelayMs w k = min (w.CONSUMER_RETRY_BASE_MS * 2 ^ k) 60000 := by
  unfold retryDelayMs
  rcases Nat.le_total k 16 with hk | hk
  · rw [Nat.min_eq_left hk]
  · have hcap : 60000 ≤ w.CONSUMER_RETRY_BASE_MS * 2 ^ 16 :=
      Nat.le_trans (by decide) (Nat.le_mul_of_pos_left (2 ^ 16) hbase)
    have hmore : w.CONSUMER_RETRY_BASE_MS * 2 ^ 16 ≤ w.CONSUMER_RETRY_BASE_MS * 2 ^ k :=
      Nat.mul_le_mul_left _ (Nat.pow_le_pow_right (by decide) hk)
    rw [Nat.min_eq_right hk, Nat.min_eq_right hcap, Nat.min_eq_right (Nat.le_trans hcap hmore)]

/-- The delays of the tests with a base of one second. -/
example (runtime : Runtime) : [0, 1, 20].map (retryDelayMs ⟨runtime, "worker", 5, 1000⟩) =
    [1000, 2000, 60000] := by
  simp [retryDelayMs]

/-- `n` calls of the handler, each followed by its sleep. -/
def rounds (w : Worker) (n : Nat) : List RetryEffect :=
  (List.range n).flatMap fun k ↦ [.handler, .sleep (retryDelayMs w k)]

private theorem rounds_succ (w : Worker) (n : Nat) :
    rounds w (n + 1) = rounds w n ++ [.handler] ++ [.sleep (retryDelayMs w n)] := by
  simp [rounds, List.range_succ, List.flatMap_append]

private theorem length_rounds (w : Worker) (n : Nat) : (rounds w n).length = 2 * n := by
  induction n with
  | zero => rfl
  | succ n ih =>
    rw [rounds_succ, List.length_append, List.length_append, ih]
    rfl

/-- The handler throws before the last attempt. -/
private theorem turn_failed {attempt : Nat} {error : String} (hmore : attempt + 1 < maxAttempts)
    (herror : o.handler attempt = .error error) :
    (Retry.attempting attempt).turn w maxAttempts o =
      some (.handler, .sleeping attempt (retryDelayMs w attempt) error) := by
  simp only [Retry.turn, herror, Retry.failed, if_neg (Nat.ne_of_lt hmore)]

/-- Attempts that fail and sleeps that end lead to the next attempt. -/
private theorem turns_rounds (n : Nat) (hn : n < maxAttempts)
    (herrors : ∀ k < n, ∃ error, o.handler k = .error error)
    (hsleeps : ∀ k < n, o.sleep k = .ok ()) :
    Turns w maxAttempts o (.attempting 0) (rounds w n) (.attempting n) := by
  induction n with
  | zero => exact .refl _
  | succ n ih =>
    have hrounds := ih (Nat.lt_of_succ_lt hn) (fun k hk ↦ herrors k (Nat.lt_succ_of_lt hk))
      (fun k hk ↦ hsleeps k (Nat.lt_succ_of_lt hk))
    obtain ⟨error, herror⟩ := herrors n (Nat.lt_succ_self n)
    rw [rounds_succ]
    refine .snoc (.snoc hrounds (turn_failed hn herror)) ?_
    simp only [Retry.turn, hsleeps n (Nat.lt_succ_self n), Retry.loop, if_pos hn]

private theorem start_eq (hmax : 1 ≤ maxAttempts) :
    Retry.loop maxAttempts 0 none = .attempting 0 := if_pos hmax

/-- The handler succeeds in call `n`. -/
private theorem processWithRetry_success {n : Nat} (hn : n < maxAttempts)
    (herrors : ∀ k < n, ∃ error, o.handler k = .error error)
    (hsleeps : ∀ k < n, o.sleep k = .ok ()) (hsuccess : o.handler n = .ok ()) :
    processWithRetry w maxAttempts o = (rounds w n ++ [.handler], .resolved) := by
  rw [processWithRetry, start_eq (Nat.zero_lt_of_lt hn)]
  refine run_of_turns (.snoc (turns_rounds n hn herrors hsleeps) ?_) rfl ?_
  · simp only [Retry.turn, hsuccess]
  · rw [List.length_append, length_rounds, List.length_singleton]
    omega

/-- Sleep `n` rejects. -/
private theorem processWithRetry_sleepRejects {n : Nat} {error : String} (hn : n + 1 < maxAttempts)
    (herrors : ∀ k ≤ n, ∃ error, o.handler k = .error error)
    (hsleeps : ∀ k < n, o.sleep k = .ok ()) (hreject : o.sleep n = .error error) :
    processWithRetry w maxAttempts o =
      (rounds w n ++ [.handler] ++ [.sleep (retryDelayMs w n)], .rejected error) := by
  rw [processWithRetry, start_eq (Nat.zero_lt_of_lt hn)]
  have hrounds := turns_rounds (w := w) n (Nat.lt_of_succ_lt hn)
    (fun k hk ↦ herrors k (Nat.le_of_lt hk)) hsleeps
  obtain ⟨lastError, hlast⟩ := herrors n (Nat.le_refl n)
  refine run_of_turns (.snoc (.snoc hrounds (turn_failed hn hlast)) ?_) rfl ?_
  · simp only [Retry.turn, hreject]
  · simp only [List.length_append, length_rounds, List.length_singleton]
    omega

/-- Every attempt fails. -/
private theorem processWithRetry_failure {n : Nat} {lastError : String} (hn : n + 1 = maxAttempts)
    (herrors : ∀ k < n, ∃ error, o.handler k = .error error)
    (hsleeps : ∀ k < n, o.sleep k = .ok ()) (hlast : o.handler n = .error lastError) :
    processWithRetry w maxAttempts o =
      (rounds w n ++ [.handler] ++ [.publishDlq (some lastError) maxAttempts],
        match o.publishDlq with
        | .ok () => .resolved
        | .error error => .rejected error) := by
  have hlt : n < maxAttempts := by omega
  rw [processWithRetry, start_eq (Nat.zero_lt_of_lt hlt)]
  have hturn : (Retry.attempting n).turn w maxAttempts o =
      some (.handler, .publishing (some lastError)) := by
    simp only [Retry.turn, hlast, Retry.failed, if_pos hn]
  refine run_of_turns (.snoc (.snoc (turns_rounds n hlt herrors hsleeps) hturn) rfl) ?_ ?_
  · cases o.publishDlq <;> rfl
  · simp only [List.length_append, length_rounds, List.length_singleton]
    omega

/-! ### The contract -/

/-- The error that a call ends with. -/
def errorOf : Except String Unit → Option String
  | .ok () => none
  | .error error => some error

/-- Call `k` of the handler fails. -/
def Outcomes.fails (o : Outcomes) (k : Nat) : Bool := (errorOf (o.handler k)).isSome

/-- The position of the first success, from 1, or `maxAttempts` if there is none. -/
def Outcomes.IsPosition (o : Outcomes) (maxAttempts i : Nat) : Prop :=
  (1 ≤ i ∧ o.fails (i - 1) = false ∧ ∀ k < i - 1, o.fails k = true) ∨
    (i = maxAttempts ∧ ∀ k, o.fails k = true)

/-- The send to the dead-letter queue, if every attempt fails. -/
def Outcomes.send (o : Outcomes) (maxAttempts : Nat) : List RetryEffect :=
  if (List.range maxAttempts).all o.fails then
    [.publishDlq (errorOf (o.handler (maxAttempts - 1))) maxAttempts]
  else []

private theorem fails_eq_true {k : Nat} :
    o.fails k = true ↔ ∃ error, o.handler k = .error error := by
  unfold Outcomes.fails
  cases o.handler k <;> simp [errorOf]

private theorem fails_eq_false {k : Nat} : o.fails k = false ↔ o.handler k = .ok () := by
  unfold Outcomes.fails
  cases o.handler k <;> simp [errorOf]

/-- The last call, numbered from 0, and those before it. -/
private theorem last_call (hmax : 1 ≤ maxAttempts) {i : Nat} (hi : o.IsPosition maxAttempts i) :
    ∃ n, min i maxAttempts = n + 1 ∧ (∀ k < n, o.fails k = true) ∧
      (o.fails n = false ∧ n < maxAttempts ∨ n + 1 = maxAttempts ∧ o.fails n = true) := by
  rcases hi with ⟨hpos, hsuccess, hfailures⟩ | ⟨rfl, hfailures⟩
  · obtain ⟨n, rfl⟩ := Nat.exists_eq_add_of_le' hpos
    rw [Nat.add_sub_cancel] at hsuccess hfailures
    rcases Nat.lt_or_ge n maxAttempts with hn | hn
    · exact ⟨n, Nat.min_eq_left hn, hfailures, .inl ⟨hsuccess, hn⟩⟩
    · obtain ⟨m, rfl⟩ := Nat.exists_eq_add_of_le' hmax
      exact ⟨m, Nat.min_eq_right (Nat.le_succ_of_le hn),
        fun k hk ↦ hfailures k (by omega), .inr ⟨rfl, hfailures m (by omega)⟩⟩
  · obtain ⟨m, rfl⟩ := Nat.exists_eq_add_of_le' hmax
    exact ⟨m, Nat.min_self _, fun k _ ↦ hfailures k, .inr ⟨rfl, hfailures m⟩⟩

private theorem exists_first_reject (o : Outcomes) (n : Nat) :
    (∀ k < n, o.sleep k = .ok ()) ∨
      ∃ k < n, ∃ error, o.sleep k = .error error ∧ ∀ j < k, o.sleep j = .ok () := by
  induction n with
  | zero => exact .inl fun k hk ↦ absurd hk (Nat.not_lt_zero k)
  | succ n ih =>
    rcases ih with hsleeps | ⟨k, hk, error, hreject, hsleeps⟩
    · cases hsleep : o.sleep n with
      | ok u =>
        refine .inl fun k hk ↦ ?_
        rcases Nat.lt_succ_iff_lt_or_eq.mp hk with hk | rfl
        · exact hsleeps k hk
        · exact hsleep
      | error error => exact .inr ⟨n, Nat.lt_succ_self n, error, hsleep, hsleeps⟩
    · exact .inr ⟨k, Nat.lt_succ_of_lt hk, error, hreject, hsleeps⟩

private theorem count_handler_rounds (w : Worker) (n : Nat) :
    (rounds w n).count .handler = n := by
  induction n with
  | zero => rfl
  | succ n ih =>
    rw [rounds_succ, List.count_append, List.count_append, ih]
    rfl

private theorem send_eq_nil {n : Nat} (hn : n < maxAttempts) (hsuccess : o.fails n = false) :
    o.send maxAttempts = [] := by
  refine if_neg fun hall ↦ ?_
  have hfails := List.all_eq_true.mp hall n (List.mem_range.mpr hn)
  rw [hsuccess] at hfails
  cases hfails

private theorem send_eq_singleton {n : Nat} {lastError : String} (hn : n + 1 = maxAttempts)
    (hfailures : ∀ k < n, o.fails k = true) (hlast : o.handler n = .error lastError) :
    o.send maxAttempts = [.publishDlq (some lastError) maxAttempts] := by
  subst hn
  have hall : (List.range (n + 1)).all o.fails = true := by
    refine List.all_eq_true.mpr fun k hk ↦ ?_
    rcases Nat.lt_succ_iff_lt_or_eq.mp (List.mem_range.mp hk) with hk | rfl
    · exact hfailures k hk
    · exact fails_eq_true.mpr ⟨lastError, hlast⟩
  rw [Outcomes.send, if_pos hall, Nat.add_sub_cancel, hlast]
  rfl

/-- Without a rejected sleep the loop calls the handler and sleeps in turn up to the last call,
sends the message to the dead-letter queue if every attempt has failed, and ends as the send
does. -/
private theorem processWithRetry_sleeping {n : Nat} (hlast : o.fails n = false ∧ n < maxAttempts ∨
      n + 1 = maxAttempts ∧ o.fails n = true)
    (hfailures : ∀ k < n, o.fails k = true) (hsleeps : ∀ k < n, o.sleep k = .ok ()) :
    (processWithRetry w maxAttempts o).1 = rounds w n ++ [.handler] ++ o.send maxAttempts ∧
      (processWithRetry w maxAttempts o).2 =
        match errorOf o.publishDlq with
        | none => .resolved
        | some error => if o.send maxAttempts = [] then .resolved else .rejected error := by
  have herrors : ∀ k < n, ∃ error, o.handler k = .error error :=
    fun k hk ↦ fails_eq_true.mp (hfailures k hk)
  rcases hlast with ⟨hsuccess, hn⟩ | ⟨hn, hfails⟩
  · rw [processWithRetry_success hn herrors hsleeps (fails_eq_false.mp hsuccess),
      send_eq_nil hn hsuccess, List.append_nil]
    refine ⟨rfl, ?_⟩
    cases errorOf o.publishDlq <;> rfl
  · obtain ⟨lastError, hlast⟩ := fails_eq_true.mp hfails
    rw [processWithRetry_failure hn herrors hsleeps hlast,
      send_eq_singleton hn hfailures hlast]
    refine ⟨rfl, ?_⟩
    cases o.publishDlq <;> rfl

/-- The handler is called up to its first success or `maxAttempts` times; between two calls the
loop sleeps, for the base times two to the number of the sleep but at most a minute; it sends the
message to the dead-letter queue, once and with the last error, if and only if every attempt has
failed; a sleep that rejects ends it at once; and it rejects if and only if a sleep or the send
does. -/
theorem retry_contract (hbase : 0 < w.CONSUMER_RETRY_BASE_MS) (hmax : 1 ≤ maxAttempts) {i : Nat}
    (hi : o.IsPosition maxAttempts i) :
    ((∀ k, k + 1 < min i maxAttempts → o.sleep k = .ok ()) →
      (processWithRetry w maxAttempts o).1.count .handler = min i maxAttempts ∧
        (processWithRetry w maxAttempts o).1 =
          (List.range (min i maxAttempts - 1)).flatMap (fun k ↦
            [.handler, .sleep (min (w.CONSUMER_RETRY_BASE_MS * 2 ^ k) 60000)]) ++
          [.handler] ++ o.send maxAttempts) ∧
      (∀ k error, k + 1 < min i maxAttempts → (∀ j < k, o.sleep j = .ok ()) →
        o.sleep k = .error error → processWithRetry w maxAttempts o =
          ((List.range k).flatMap (fun j ↦
              [.handler, .sleep (min (w.CONSUMER_RETRY_BASE_MS * 2 ^ j) 60000)]) ++
            [.handler, .sleep (min (w.CONSUMER_RETRY_BASE_MS * 2 ^ k) 60000)],
            .rejected error)) ∧
      ((∃ error, (processWithRetry w maxAttempts o).2 = .rejected error) ↔
        (∃ k error, k + 1 < min i maxAttempts ∧ o.sleep k = .error error) ∨
          o.send maxAttempts ≠ [] ∧ ∃ error, o.publishDlq = .error error) ∧
      ((processWithRetry w maxAttempts o).2 = .resolved ∨
        ∃ error, (processWithRetry w maxAttempts o).2 = .rejected error) := by
  obtain ⟨n, hn, hfailures, hlast⟩ := last_call hmax hi
  have hrounds : ∀ m, (List.range m).flatMap (fun k ↦
      [RetryEffect.handler, .sleep (min (w.CONSUMER_RETRY_BASE_MS * 2 ^ k) 60000)]) =
      rounds w m := by
    intro m
    simp only [rounds, retryDelayMs_eq hbase]
  have hrejected : ∀ k < n, ∀ error, (∀ j < k, o.sleep j = .ok ()) → o.sleep k = .error error →
      processWithRetry w maxAttempts o =
        (rounds w k ++ [.handler] ++ [.sleep (retryDelayMs w k)], .rejected error) :=
    fun k hk error hsleeps hreject ↦ processWithRetry_sleepRejects (by omega)
      (fun j hj ↦ fails_eq_true.mp (hfailures j (by omega))) hsleeps hreject
  simp only [hn, Nat.add_sub_cancel, hrounds, Nat.add_lt_add_iff_right]
  refine ⟨fun hsleeps ↦ ?_, fun k error hk hsleeps hreject ↦ ?_, ?_⟩
  · have heffects := (processWithRetry_sleeping (w := w) hlast hfailures hsleeps).1
    refine ⟨?_, heffects⟩
    have hsend : (o.send maxAttempts).count .handler = 0 := by
      unfold Outcomes.send
      split <;> rfl
    rw [heffects, List.count_append, List.count_append, count_handler_rounds, hsend]
    rfl
  · rw [hrejected k hk error hsleeps hreject, retryDelayMs_eq hbase, List.append_assoc]
    rfl
  · rcases exists_first_reject o n with hsleeps | ⟨k, hk, error, hreject, hsleeps⟩
    · have hnone : ¬ ∃ k error, k < n ∧ o.sleep k = .error error := by
        rintro ⟨k, error, hk, hreject⟩
        rw [hsleeps k hk] at hreject
        cases hreject
      rw [(processWithRetry_sleeping (w := w) hlast hfailures hsleeps).2, eq_false hnone, false_or]
      cases o.publishDlq with
      | ok u => simp [errorOf]
      | error error => by_cases hsend : o.send maxAttempts = [] <;> simp [errorOf, hsend]
    · rw [hrejected k hk error hsleeps hreject]
      exact ⟨⟨fun _ ↦ .inl ⟨k, error, hk, hreject⟩, fun _ ↦ ⟨error, rfl⟩⟩, .inr ⟨error, rfl⟩⟩

/-- Two failures and a success with three attempts: three calls, with sleeps of one and two seconds
between them. -/
theorem retry_contract_success :
    (processWithRetry ⟨⟨fun _ ↦ "", fun _ ↦ .ok .null, fun _ ↦ ""⟩, "worker", 5, 1000⟩ 3
        ⟨fun k ↦ if k < 2 then .error "poison" else .ok (), fun _ ↦ .ok (), .ok ()⟩).1 =
      [.handler, .sleep 1000, .handler, .sleep 2000, .handler] := by
  have hposition : Outcomes.IsPosition
      ⟨fun k ↦ if k < 2 then .error "poison" else .ok (), fun _ ↦ .ok (), .ok ()⟩ 3 3 := by
    refine .inl ⟨by decide, by decide, ?_⟩
    decide
  exact ((retry_contract (by decide) (by decide) hposition).1 fun _ _ ↦ rfl).2

end Banking.Consumer
