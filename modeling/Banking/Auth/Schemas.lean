import Banking.Js.Json

/-!
# Schemas of users and logins

`auth.schemas.ts` and `user.schemas.ts`, with the pattern of `z.email()`. What the pattern accepts
is ASCII, so lower-casing is that of ASCII letters.
-/

namespace Zod

private def isLetter (c : Char) : Bool := ('a' ≤ c && c ≤ 'z') || ('A' ≤ c && c ≤ 'Z')

private def isAlphanumeric (c : Char) : Bool := isLetter c || c.isDigit

/-- The pattern `(?!\.)(?!.*\.\.)([A-Za-z0-9_'+\-\.]*)[A-Za-z0-9_+-]`. -/
private def isMailbox (cs : List Char) : Bool :=
  cs.all (fun c ↦ isAlphanumeric c || "_'+-.".toList.contains c) && cs.head? != some '.' &&
    cs.getLast?.any (fun c ↦ isAlphanumeric c || "_+-".toList.contains c) &&
    (cs.zip cs.tail).all (· != ('.', '.'))

/-- The pattern `([A-Za-z0-9][A-Za-z0-9\-]*\.)+[A-Za-z]{2,}`. -/
private def isDomain (cs : List Char) : Bool :=
  let labels := cs.splitOn '.'
  2 ≤ labels.length &&
    labels.dropLast.all (fun label ↦ label.head?.any isAlphanumeric &&
      label.all (fun c ↦ isAlphanumeric c || c == '-')) &&
    labels.getLast?.any (fun label ↦ 2 ≤ label.length && label.all isLetter)

/-- The pattern of `z.email()`. -/
def isEmail (s : String) : Bool :=
  match s.toList.splitOn '@' with
  | [mailbox, domain] => isMailbox mailbox && isDomain domain
  | _ => false

end Zod

namespace Banking.Auth

open Zod (Schema)

/-- `z.email().trim().max(254)` in lower case; `auth.schemas.ts:5–9`, `user.schemas.ts:15–19`. -/
def emailSchema : Schema String :=
  (((Zod.string.refine Zod.isEmail).transform Js.trim).refine (Js.length · ≤ 254)).transform
    (·.map Char.toLower)

/-- The inferred type of `loginSchema`. -/
structure LoginInput where
  email : String
  password : String

/-- `auth.schemas.ts:3–12`. -/
def loginSchema : Schema LoginInput :=
  Zod.strictObject ["email", "password"] fun field ↦ do
    let email ← emailSchema (field "email")
    let password ← (Zod.string.refine fun s ↦ 1 ≤ Js.length s && Js.length s ≤ 128)
      (field "password")
    return ⟨email, password⟩

/-- `auth.schemas.ts:14–18`. -/
def refreshTokenSchema : Schema String :=
  Zod.strictObject ["refreshToken"] fun field ↦
    (Zod.string.refine fun s ↦ 32 ≤ Js.length s && Js.length s ≤ 256) (field "refreshToken")

/-- The inferred type of `createUserSchema`. -/
structure CreateUserInput where
  name : String
  email : String
  password : String

/-- `user.schemas.ts:3–10`. -/
def strongPassword : Schema String :=
  Zod.string.refine fun s ↦ 12 ≤ Js.length s && Js.length s ≤ 128 &&
    s.toList.any (fun c ↦ 'a' ≤ c && c ≤ 'z') && s.toList.any (fun c ↦ 'A' ≤ c && c ≤ 'Z') &&
    s.toList.any Char.isDigit && s.toList.any (fun c ↦ !Zod.isAlphanumeric c)

/-- `user.schemas.ts:12–22`. -/
def createUserSchema : Schema CreateUserInput :=
  Zod.strictObject ["name", "email", "password"] fun field ↦ do
    let name ← ((Zod.string.transform Js.trim).refine fun s ↦
      2 ≤ Js.length s && Js.length s ≤ 100) (field "name")
    let email ← emailSchema (field "email")
    let password ← strongPassword (field "password")
    return ⟨name, email, password⟩

end Banking.Auth
