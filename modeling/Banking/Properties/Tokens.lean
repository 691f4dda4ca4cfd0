import Banking.Properties.RefreshTokens
import Banking.Refinement.Issued

/-!
# Every token goes back to a password

However registrations, logins, refreshes and logouts interleave, a session is there only for a user
whose password has been presented in a login of the run, and a pair of tokens is returned only for
such a user, who may use the service. The refresh token of the pair opens a session of the user for
whom its access token is signed.
-/

namespace Banking.Auth

/-- Whoever holds tokens goes back to a password. -/
structure Accountable (d : Deployment) (s : SystemState) : Prop where
  /-- A pair belongs to an active user who has logged in. -/
  pairs : ∀ {i call born pair}, s.session i = some ⟨call, born, .done (.returned (.tokens pair))⟩ →
    ∃ user, Issued d s.db user pair ∧ Vouched d s user
  /-- A session, revoked or not, belongs to a user who has logged in. -/
  sessions : SessionsOf (Vouched d s) s.db

variable {d : Deployment} {users : Relational.Table User.id} {now : Js.Date} {s : SystemState}

/-- In every reachable state all tokens go back to a password. -/
theorem tokens_vouched (h : Runs d (initial users now) s) : Accountable d s :=
  ⟨pair_issued h, sessions_vouched h⟩

/-- A login, and a refresh with the token it returned. -/
def Sample.relay : List SystemAction :=
  .start 0 (.login "user@example.com" "secret") :: Sample.execute 0 7 "token-1" ++
    .start 1 (.refresh "token-1") :: Sample.execute 1 9 "token-2"

/-- The pair that process `i` has returned. -/
def Sample.returned (s : SystemState) (i : Nat) : Option (Call × Database × TokenPair) :=
  match s.session i with
  | some ⟨call, born, .done (.returned (.tokens pair))⟩ => some (call, born, pair)
  | _ => none

/-- A refreshed pair goes back to the login. -/
theorem tokens_vouched_relay : ∃ s pair user,
    Relational.run (begins Sample.deployment) (initial Sample.customers 1000) Sample.relay =
      some s ∧
      pair.refreshToken = "token-2" ∧ Issued Sample.deployment s.db user pair ∧
      Vouched Sample.deployment s user := by
  have hrun : (Relational.run (begins Sample.deployment) (initial Sample.customers 1000)
      Sample.relay).map (fun s ↦ (Sample.returned s 1).map fun t ↦ t.2.2.refreshToken) =
      some (some "token-2") := by
    decide +kernel
  obtain ⟨s, hs, hreturned⟩ := Option.map_eq_some_iff.mp hrun
  obtain ⟨⟨call, born, pair⟩, hpair, htoken⟩ := Option.map_eq_some_iff.mp hreturned
  have hi : s.session 1 = some ⟨call, born, .done (.returned (.tokens pair))⟩ := by
    unfold Sample.returned at hpair
    split at hpair
    · next h =>
      cases hpair
      exact h
    · cases hpair
  obtain ⟨user, hissued, hvouched⟩ := (tokens_vouched (Relational.runs_of_run hs)).pairs hi
  exact ⟨s, pair, user, hs, htoken, hissued, hvouched⟩

end Banking.Auth
