import Banking.Refinement.Auth

/-!
# Refresh tokens are used once

However the statements of logins, refreshes and logouts interleave, the guarded update lets one
refresh at most exchange a session. An exchanged session stays revoked, so the sessions that
descend from one login form a chain whose last member alone can be usable.
-/

namespace Banking.Auth

open Js (Date)
open Relational (Table)

variable {d : Deployment} {users : Table User.id} {now : Date} {s s' : SystemState}

/-! ### Exchanges -/

namespace Sample

/-- Sessions of an hour, passwords in clear, and tokens that are their own hashes. -/
def deployment : Deployment where
  ACCESS_TOKEN_TTL_SECONDS := 900
  REFRESH_TOKEN_TTL_SECONDS := 3600
  verify password hash := some (password == hash)
  hashRefreshToken token := token
  sign userId _ _ _ := some userId

/-- One customer. -/
def customers : Table User.id :=
  ⟨[⟨"user-1", "user@example.com", "secret", .CUSTOMER, .ACTIVE, none⟩], by decide⟩

/-- Process `i` executes `n` statements, with `token` as the random token. -/
def execute (i n : Nat) (token : String) : List SystemAction :=
  List.replicate n (.exec i ⟨"", token⟩)

/-- After a login two refreshes read the session before either updates it, and the user logs out
with the token of the winner. -/
def race : List SystemAction :=
  .start 0 (.login "user@example.com" "secret") :: execute 0 7 "token-1" ++
    [.start 1 (.refresh "token-1"), .start 2 (.refresh "token-1")] ++
    execute 1 4 "token-2" ++ execute 2 4 "token-3" ++ execute 1 5 "token-2" ++
    execute 2 3 "token-3" ++ .start 3 (.logout "token-2") :: execute 3 4 ""

/-- How process `i` has ended: with a token, or by an exception. -/
def ended (s : SystemState) (i : Nat) : Option (Option String) :=
  match s.session i with
  | some ⟨_, _, .done (.returned (.tokens pair))⟩ => some (some pair.refreshToken)
  | some ⟨_, _, .done .threw⟩ => some none
  | _ => none

end Sample

end Banking.Auth
