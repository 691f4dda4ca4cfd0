import Banking.Database.Tables
import Banking.Relational.Replay
import Mathlib.Logic.Function.Basic

/-!
# A bank

What the system is for, in its own terms. A bank keeps balances, payments and a ledger. A payment is
settled or refused when it arrives, once and for all; a settled payment is posted to the ledger and
can be finalized then, or it is given back before it is posted. Nothing here speaks of statements,
locks or events.
-/

namespace Banking

open Relational (Reducer)

namespace Bank

/-- What a payment does to which account. -/
structure Movement (A : Type) where
  account : A
  type : TransactionType
  amount : Int

/-- What a movement adds to the balance of its account. -/
def Movement.signedAmount {A : Type} (m : Movement A) : Int :=
  match m.type with
  | .DEBIT => -m.amount
  | .CREDIT => m.amount

/-- A payment that has been decided, with the balance that it left if it was settled. -/
structure Payment (A : Type) where
  movement : Movement A
  left : Option Int
  status : TransactionStatus

/-- A line of the ledger. -/
structure Posting (A : Type) where
  movement : Movement A
  balanceAfter : Int

/-- What can happen to a payment. -/
inductive Operation (A P : Type) where
  | settle (p : P) (movement : Movement A) (balanceAfter : Int)
  | refuse (p : P) (movement : Movement A)
  | post (p : P) (posting : Posting A)
  | finalize (p : P) (posting : Posting A)
  | giveBack (p : P) (account : A) (amount balanceAfter : Int)

end Bank

/-- Balances, payments and the ledger. -/
structure Bank (A P : Type) where
  balance : A → Option Int
  payment : P → Option (Bank.Payment A)
  posting : P → Option (Bank.Posting A)

namespace Bank

variable {A P : Type} [DecidableEq A] [DecidableEq P]

/-- The balance of an account becomes another. -/
def setBalance (b : Bank A P) (account : A) (balance : Int) : Bank A P :=
  { b with balance := Function.update b.balance account (some balance) }

/-- A payment is decided. -/
def record (b : Bank A P) (p : P) (payment : Payment A) : Bank A P :=
  { b with payment := Function.update b.payment p (some payment) }

/-- The status of a payment becomes another. -/
def setStatus (b : Bank A P) (p : P) (status : TransactionStatus) : Bank A P :=
  { b with
    payment := Function.update b.payment p
      ((b.payment p).map fun payment ↦ { payment with status }) }

/-- Where an operation is allowed. -/
inductive Allowed (b : Bank A P) : Operation A P → Prop
  /-- A new payment of a positive amount moves the balance, and a debit leaves something. -/
  | settle {p movement balance balanceAfter} (hnew : b.payment p = none)
      (hamount : 0 < movement.amount) (hbalance : b.balance movement.account = some balance)
      (hfunds : movement.type = .DEBIT → movement.amount < balance)
      (hafter : balanceAfter = balance + movement.signedAmount) :
      Allowed b (.settle p movement balanceAfter)
  /-- A new payment of a positive amount is refused. -/
  | refuse {p movement} (hnew : b.payment p = none) (hamount : 0 < movement.amount)
      (haccount : (b.balance movement.account).isSome) : Allowed b (.refuse p movement)
  /-- A payment that was settled is posted once, as it was settled. It may have been given back
  since: the system posts it all the same. -/
  | post {p payment posting} (hpayment : b.payment p = some payment)
      (hmovement : posting.movement = payment.movement)
      (hleft : payment.left = some posting.balanceAfter) (hunposted : b.posting p = none) :
      Allowed b (.post p posting)
  /-- A posted payment becomes final once, as it was posted. -/
  | finalize {p payment posting} (hpayment : b.payment p = some payment)
      (hstatus : payment.status = .COMPLETED) (hposting : b.posting p = some posting) :
      Allowed b (.finalize p posting)
  /-- A settled payment that is not posted is given back, which overdraws no account. -/
  | giveBack {p payment balance balanceAfter} (hpayment : b.payment p = some payment)
      (hstatus : payment.status = .COMPLETED) (hunposted : b.posting p = none)
      (hbalance : b.balance payment.movement.account = some balance)
      (hafter : balanceAfter = balance - payment.movement.signedAmount)
      (hnonneg : 0 ≤ balanceAfter) :
      Allowed b (.giveBack p payment.movement.account payment.movement.amount balanceAfter)

/-- What an operation does. -/
def apply (b : Bank A P) : Operation A P → Bank A P
  | .settle p movement balanceAfter =>
    (b.record p ⟨movement, some balanceAfter, .COMPLETED⟩).setBalance movement.account balanceAfter
  | .refuse p movement => b.record p ⟨movement, none, .BLOCKED⟩
  | .post p posting => { b with posting := Function.update b.posting p (some posting) }
  | .finalize p _ => b.setStatus p .FINALIZED
  | .giveBack p account _ balanceAfter =>
    (b.setBalance account balanceAfter).setStatus p .BLOCKED

variable (A P) in
/-- The bank as a reducer of its operations. -/
def reducer : Reducer (Bank A P) (Operation A P) where
  allowed := Allowed
  apply := apply

/-- A bank before the first payment. -/
def opening (balance : A → Option Int) : Bank A P := ⟨balance, fun _ ↦ none, fun _ ↦ none⟩

/-! ### What operations do to payments -/

/-- The movements and the statuses of the payments. -/
def decisions (b : Bank A P) (p : P) : Option (Movement A × TransactionStatus) :=
  (b.payment p).map fun payment ↦ (payment.movement, payment.status)

section

variable {b : Bank A P} {p : P} {payment : Payment A}

omit [DecidableEq A] in
/-- A decided payment. -/
theorem decisions_record :
    (b.record p payment).decisions =
      Function.update b.decisions p (some (payment.movement, payment.status)) := by
  funext q
  by_cases hq : q = p
  · subst hq
    simp [decisions, record]
  · simp [decisions, record, hq]

omit [DecidableEq A] in
/-- A payment with another status. -/
theorem decisions_setStatus (h : b.payment p = some payment) (status : TransactionStatus) :
    (b.setStatus p status).decisions =
      Function.update b.decisions p (some (payment.movement, status)) := by
  funext q
  by_cases hq : q = p
  · subst hq
    simp [decisions, setStatus, h]
  · simp [decisions, setStatus, hq]

/-- What a payment left is decided once and for all. -/
theorem left_apply {o : Operation A P} (ho : Allowed b o) (h : b.payment p = some payment) :
    ∃ payment', (b.apply o).payment p = some payment' ∧ payment'.left = payment.left := by
  have hstatus : ∀ q status, ∃ payment', (b.setStatus q status).payment p = some payment' ∧
      payment'.left = payment.left := by
    intro q status
    by_cases hq : p = q
    · subst hq
      exact ⟨{ payment with status }, by simp [setStatus, h], rfl⟩
    · exact ⟨payment, by simp [setStatus, hq, h], rfl⟩
  cases ho with
  | @settle q movement balance balanceAfter hnew hamount hbalance hfunds hafter =>
    have hq : p ≠ q := fun hq ↦ by simp [← hq, h] at hnew
    exact ⟨payment, by simp [Bank.apply, record, setBalance, hq, h], rfl⟩
  | @refuse q movement hnew hamount haccount =>
    have hq : p ≠ q := fun hq ↦ by simp [← hq, h] at hnew
    exact ⟨payment, by simp [Bank.apply, record, hq, h], rfl⟩
  | post hpayment hmovement hleft hunposted => exact ⟨payment, h, rfl⟩
  | finalize hpayment hstatus' hposting => exact hstatus _ _
  | giveBack hpayment hstatus' hunposted hbalance hafter hnonneg => exact hstatus _ _

end

/-! ### What holds of the books -/

/-- What a bank can have of a payment. -/
inductive Life : Option (Payment A) → Option (Posting A) → Prop
  | unknown : Life none none
  | refused {m} : Life (some ⟨m, none, .BLOCKED⟩) none
  | settled {m n} : Life (some ⟨m, some n, .COMPLETED⟩) none
  | posted {m n} : Life (some ⟨m, some n, .COMPLETED⟩) (some ⟨m, n⟩)
  | final {m n} : Life (some ⟨m, some n, .FINALIZED⟩) (some ⟨m, n⟩)
  | givenBack {m n} : Life (some ⟨m, some n, .BLOCKED⟩) none
  /-- Posted after it was given back. -/
  | misposted {m n} : Life (some ⟨m, some n, .BLOCKED⟩) (some ⟨m, n⟩)

/-- No account is overdrawn, and every payment has a life. -/
structure Sound (b : Bank A P) : Prop where
  solvent : ∀ {account balance}, b.balance account = some balance → 0 ≤ balance
  life : ∀ p, Life (b.payment p) (b.posting p)

omit [DecidableEq A] [DecidableEq P] in
/-- A bank opens with sound books. -/
theorem sound_opening {balance : A → Option Int}
    (h : ∀ {account n}, balance account = some n → 0 ≤ n) : (opening (P := P) balance).Sound :=
  ⟨h, fun _ ↦ .unknown⟩

section

variable {b : Bank A P} {p : P}

/-- A balance that is not negative may be written. -/
private theorem solvent_update {balance : A → Option Int} (account : A) {n : Int} (hn : 0 ≤ n)
    (h : ∀ {a m}, balance a = some m → 0 ≤ m) {a : A} {m : Int}
    (hm : Function.update balance account (some n) a = some m) : 0 ≤ m := by
  by_cases ha : a = account
  · subst ha
    rw [Function.update_self] at hm
    cases hm
    exact hn
  · rw [Function.update_of_ne ha] at hm
    exact h hm

omit [DecidableEq A] in
/-- One payment goes on with its life. -/
private theorem life_of_others (h : b.Sound) {b' : Bank A P} (p : P)
    (hothers : ∀ q, q ≠ p → b'.payment q = b.payment q ∧ b'.posting q = b.posting q)
    (hlife : Life (b'.payment p) (b'.posting p)) (q : P) :
    Life (b'.payment q) (b'.posting q) := by
  by_cases hq : q = p
  · exact hq ▸ hlife
  · rw [(hothers q hq).1, (hothers q hq).2]
    exact h.life q

omit [DecidableEq A] [DecidableEq P] in
/-- A payment that has not arrived is not posted. -/
private theorem unposted_of_unknown (h : b.Sound) (hnew : b.payment p = none) :
    b.posting p = none := by
  have hlife := h.life p
  rw [hnew] at hlife
  cases hposting : b.posting p with
  | none => rfl
  | some posting => rw [hposting] at hlife; cases hlife

/-- Every allowed operation keeps the books sound. -/
theorem Sound.apply (h : b.Sound) {o : Operation A P} (ho : Allowed b o) : (b.apply o).Sound := by
  cases ho with
  | @settle p m balance balanceAfter hnew hamount hbalance hfunds hafter =>
    have hnonneg : 0 ≤ balanceAfter := by
      have := h.solvent hbalance
      rw [hafter, Movement.signedAmount]
      cases htype : m.type with
      | DEBIT =>
        have := hfunds htype
        dsimp only
        omega
      | CREDIT =>
        dsimp only
        omega
    refine ⟨solvent_update m.account hnonneg h.solvent, life_of_others h p
      (fun q hq ↦ ⟨Function.update_of_ne hq _ _, rfl⟩) ?_⟩
    simp only [Bank.apply, record, setBalance, Function.update_self, unposted_of_unknown h hnew]
    exact .settled
  | @refuse p m hnew hamount haccount =>
    refine ⟨h.solvent, life_of_others h p
      (fun q hq ↦ ⟨Function.update_of_ne hq _ _, rfl⟩) ?_⟩
    simp only [Bank.apply, record, Function.update_self, unposted_of_unknown h hnew]
    exact .refused
  | @post p payment posting hpayment hmovement hleft hunposted =>
    have hlife := h.life p
    rw [hpayment, hunposted] at hlife
    refine ⟨h.solvent, life_of_others h p
      (fun q hq ↦ ⟨rfl, Function.update_of_ne hq _ _⟩) ?_⟩
    obtain ⟨m, n⟩ := posting
    cases hmovement
    simp only [Bank.apply, Function.update_self, hpayment]
    cases hlife with
    | refused => cases hleft
    | settled =>
      obtain rfl := Option.some.inj hleft
      exact .posted
    | givenBack =>
      obtain rfl := Option.some.inj hleft
      exact .misposted
  | @finalize p payment posting hpayment hstatus hposting =>
    have hlife := h.life p
    rw [hpayment, hposting] at hlife
    refine ⟨h.solvent, life_of_others h p
      (fun q hq ↦ ⟨Function.update_of_ne hq _ _, rfl⟩) ?_⟩
    simp only [Bank.apply, setStatus, Function.update_self, hpayment, hposting, Option.map_some]
    cases hlife with
    | posted => exact .final
    | final => cases hstatus
    | misposted => cases hstatus
  | @giveBack p payment balance balanceAfter hpayment hstatus hunposted hbalance hafter hnonneg =>
    have hlife := h.life p
    rw [hpayment, hunposted] at hlife
    refine ⟨solvent_update _ hnonneg h.solvent, life_of_others h p
      (fun q hq ↦ ⟨Function.update_of_ne hq _ _, rfl⟩) ?_⟩
    simp only [Bank.apply, setStatus, setBalance, Function.update_self, hpayment, hunposted,
      Option.map_some]
    cases hlife with
    | refused => cases hstatus
    | settled => exact .givenBack
    | givenBack => cases hstatus

/-- The books are sound after every legal log. -/
theorem Sound.replay (h : b.Sound) {log : List (Operation A P)} (hlog : (reducer A P).Legal b log) :
    ((reducer A P).replay b log).Sound :=
  hlog.invariant (P := Sound) (fun _ _ ho hs ↦ hs.apply ho) h

end

end Bank

end Banking
