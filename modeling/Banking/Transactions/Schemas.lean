import Banking.Events.Schemas

/-!
# Requests and results of the transaction engine

`transactions.schemas.ts` and the parts of an Express request that the engine reads. A
`CreateTransactionInput` carries what `createTransactionSchema` has checked of it.
-/

namespace Banking

open Zod (Schema)

/-- The inferred type of `createTransactionSchema`; `transactions.schemas.ts:16–24`. -/
structure CreateTransactionInput where
  transactionId : String
  accountId : String
  type : TransactionType
  amountMinor : Int
  deviceFingerprint : String
  transactionId_trimmed : Js.trim transactionId = transactionId
  transactionId_length : 1 ≤ Js.length transactionId ∧ Js.length transactionId ≤ 100
  accountId_uuid : Zod.isUuid accountId = true
  amountMinor_pos : 0 < amountMinor
  deviceFingerprint_trimmed : Js.trim deviceFingerprint = deviceFingerprint
  deviceFingerprint_length : 1 ≤ Js.length deviceFingerprint ∧ Js.length deviceFingerprint ≤ 256

/-- `transactions.schemas.ts:11–14`. -/
def amountMinorSchema : Schema Int := (Zod.string.refine Js.isPositiveDigits).transform Js.bigInt

private theorem uuid_of_schema {v : Option Json} {s : String} (h : Zod.uuid v = some s) :
    Zod.isUuid s = true := (Zod.refine_eq_some.mp h).2

private theorem pos_of_schema {v : Option Json} {n : Int} (h : amountMinorSchema v = some n) :
    0 < n := by
  obtain ⟨s, hs, rfl⟩ := Zod.transform_eq_some.mp h
  exact Js.bigInt_pos (Zod.refine_eq_some.mp hs).2

/-- `transactions.schemas.ts:16–24`. -/
def createTransactionSchema : Schema CreateTransactionInput :=
  Zod.strictObject ["transactionId", "accountId", "type", "amountMinor", "deviceFingerprint"]
    fun field ↦
    match h₁ : Zod.boundedString 100 (field "transactionId"), h₂ : Zod.uuid (field "accountId"),
      transactionTypeSchema (field "type"), h₄ : amountMinorSchema (field "amountMinor"),
      h₅ : Zod.boundedString 256 (field "deviceFingerprint") with
    | some transactionId, some accountId, some type, some amountMinor, some deviceFingerprint =>
      some {
        transactionId, accountId, type, amountMinor, deviceFingerprint
        transactionId_trimmed := (Zod.boundedString_eq_some h₁).1
        transactionId_length := (Zod.boundedString_eq_some h₁).2
        accountId_uuid := uuid_of_schema h₂
        amountMinor_pos := pos_of_schema h₄
        deviceFingerprint_trimmed := (Zod.boundedString_eq_some h₅).1
        deviceFingerprint_length := (Zod.boundedString_eq_some h₅).2 }
    | _, _, _, _, _ => none

/-- `express.d.ts:7–10`. -/
structure Auth where
  userId : String
  role : UserRole

/-- What the engine reads of a request; `forwardedFor` is the header as one string. -/
structure Request where
  auth : Option Auth
  ip : Option String
  forwardedFor : Option String

/-- `request.ip`, else the first forwarded address, else `null`; the empty string is falsy.
`transactions.repository.ts:59–62`. -/
def Request.ipAddress (request : Request) : Option String :=
  (request.ip.filter (· ≠ "")).or
    ((request.forwardedFor.map (fun h ↦ Js.trim (Js.beforeComma h))).filter (· ≠ ""))

/-- `transactions.schemas.ts:54–60`. `authorizedAt` is there only when the row was read without
a selection. -/
structure TransactionResponse where
  id : String
  transactionId : String
  accountId : String
  type : TransactionType
  amount : String
  status : TransactionStatus
  createdAt : String
  authorizedAt : Option Js.Date

/-- `transactions.schemas.ts:62–72`. -/
inductive TransactionResult where
  | success (statusCode : Nat) (data : TransactionResponse)
  | failure (statusCode : Nat) (message : String)

/-- The status code of a result. -/
def TransactionResult.statusCode : TransactionResult → Nat
  | .success code _ => code
  | .failure code _ => code

end Banking
