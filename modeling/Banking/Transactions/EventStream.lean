import Banking.Realtime.Service
import Banking.Transactions.Schemas
import Mathlib.Logic.Function.Basic

/-!
# The event stream of a transaction

Any number of requests run the handler of `GET /transactions/:transactionId/events` of
`transactions.route.ts` in one process. The handler waits once, for the lookup of the
transaction; between the steps of the requests events are published, heartbeats fire and clients
disconnect. Setting a header after the first write throws, and what is written to a response
after its end, or after its client has gone, is lost.
-/

namespace Banking.EventStream

/-! ### The response -/

/-- A piece of the answer. -/
inductive Chunk where
  /-- The text of an event; `none` is `undefined`. -/
  | event (eventType : Option String) (data : Option Json)
  | heartbeat
  /-- `response.status(…).json({ message: … })`. -/
  | message (statusCode : Nat) (message : String)
  /-- The answer of the error handler. -/
  | error

/-- A response. -/
structure Response where
  statusCode : Nat
  headers : List (String × String)
  headersSent : Bool
  /-- The response was ended or its connection closed. -/
  ended : Bool
  written : List Chunk

namespace Response

/-- A response that nothing was written to. -/
def initial : Response := ⟨200, [], false, false, []⟩

/-- `response.write`. -/
def write (chunk : Chunk) (response : Response) : Response :=
  if response.ended then response
  else { response with headersSent := true, written := response.written ++ [chunk] }

/-- `response.setHeader`; `none` is an exception. -/
def setHeader (name value : String) (response : Response) : Option Response :=
  if response.headersSent then none
  else some { response with headers := response.headers ++ [(name, value)] }

/-- `response.flushHeaders`. -/
def flushHeaders (response : Response) : Response := { response with headersSent := true }

/-- `response.status(statusCode).json({ message })`, which sets the content type; `none` is an
exception. -/
def answer (statusCode : Nat) (message : String) (response : Response) : Option Response := do
  let response ← response.setHeader "Content-Type" "application/json; charset=utf-8"
  return { ({ response with statusCode }).write (.message statusCode message) with ended := true }

/-- An exception of the handler: the error handler answers unless the headers have been sent,
else the connection is closed; `error-handler.ts:151–154`. -/
def fail (response : Response) : Response :=
  if response.headersSent then { response with ended := true }
  else { response.write .error with ended := true }

end Response

/-! ### The handler -/

/-- How the lookup ends; `transactions.route.ts:53–56`. -/
inductive LookupResult where
  | threw
  | missing
  /-- The row, and the `userId` of its account. -/
  | found (transaction : Transaction) (userId : String)

/-- A request in the handler, with the result of its lookup once there is one. -/
structure Handler where
  transactionId : String
  auth : Auth
  lookup : Option LookupResult
  closed : Bool
  heartbeat : Bool
  /-- The `close` listener is registered. -/
  onClose : Bool
  disconnected : Bool
  response : Response

namespace Handler

/-- The handler up to the lookup; `transactions.route.ts:38–51`. -/
def initial (transactionId : String) (auth : Auth) : Handler :=
  ⟨transactionId, auth, none, false, false, false, false, .initial⟩

/-- `sendEvent`; `transactions.route.ts:44–47`. -/
def sendEvent (eventType : Option String) (data : Option Json) (h : Handler) : Handler :=
  if h.closed then h else { h with response := h.response.write (.event eventType data) }

/-- The listener of the request; `transactions.route.ts:49–51`. -/
def listen (argument : ListenerArgument) (h : Handler) : Handler :=
  h.sendEvent argument.eventType argument.data

/-- The condition of `transactions.route.ts:62`. -/
def isForeign (auth : Auth) (userId : String) : Bool := auth.role ≠ .ADMIN && auth.userId ≠ userId

/-- `transactions.route.ts:75–82`. -/
def initialEventType : TransactionStatus → String
  | .BLOCKED => "TransactionBlocked"
  | .FINALIZED => "TransactionFinalized"
  | .COMPLETED => "TransactionCompleted"
  | .PENDING => "TransactionPending"

/-- The data of the first event; `transactions.route.ts:83–89`. -/
def snapshot (transaction : Transaction) : Json :=
  .obj [("transactionId", .str transaction.transactionId),
    ("accountId", .str transaction.accountId), ("type", .str transaction.type.label),
    ("amount", .str (toString transaction.amount)), ("status", .str transaction.status.label)]

/-- The lookup finds no transaction, or that of another user: the listener goes first. -/
def isRefused (auth : Auth) : LookupResult → Bool
  | .threw => false
  | .missing => true
  | .found _ userId => isForeign auth userId

/-- The headers of the stream; `transactions.route.ts:68–72`. -/
def openStream (response : Response) : Option Response := do
  let response ← ({ response with statusCode := 200 }).setHeader "Content-Type" "text/event-stream"
  let response ← response.setHeader "Cache-Control" "no-cache"
  let response ← response.setHeader "Connection" "keep-alive"
  return response.flushHeaders

/-- The handler from the result of its lookup on; `transactions.route.ts:57–95`. -/
def resume (result : LookupResult) (h : Handler) : Handler :=
  let h := { h with lookup := some result }
  match result with
  | .threw => { h with response := h.response.fail }
  | .missing =>
    { h with response :=
        (h.response.answer 404 "Transaction not found").getD h.response.fail }
  | .found transaction userId =>
    if isForeign h.auth userId then
      { h with response :=
          (h.response.answer 403 "Unauthorized access").getD h.response.fail }
    else
      match openStream h.response with
      | none => { h with response := h.response.fail }
      | some response =>
        { ({ h with response, heartbeat := true }).sendEvent
            (some (initialEventType transaction.status)) (some (snapshot transaction)) with
          onClose := true }

/-- The client disconnects, and `close` is emitted; `transactions.route.ts:91–95`. -/
def disconnect (h : Handler) : Handler :=
  let h := { h with disconnected := true, response := { h.response with ended := true } }
  if h.onClose then { h with closed := true, heartbeat := false } else h

end Handler

/-! ### The process -/

/-- The listeners and the requests of a process. -/
structure State where
  events : Listeners
  handler : Nat → Option Handler

/-- What can happen next. -/
inductive Action where
  /-- A request passes `authenticate` and `requireRole` and reaches the handler. -/
  | request (r : Nat) (transactionId : String) (auth : Auth)
  | lookup (r : Nat) (result : LookupResult)
  | publish (event : RealtimeTransactionEvent)
  | heartbeat (r : Nat)
  | disconnect (r : Nat)

namespace State

/-- No requests. -/
def initial : State := ⟨.empty, fun _ ↦ none⟩

/-- Change a request. -/
def modify (s : State) (r : Nat) (f : Handler → Handler) : State :=
  { s with handler := Function.update s.handler r ((s.handler r).map f) }

/-- Call listeners one after the other. -/
def call (s : State) (calls : ListenerCalls) : State :=
  calls.foldl (fun s call ↦ s.modify call.1 (Handler.listen call.2)) s

/-- A request subscribes. -/
def subscribe (s : State) (transactionId : String) (r : Nat) : State :=
  let (called, events) := subscribeToTransaction transactionId r s.events
  { s.call called with events }

/-- A request unsubscribes. -/
def unsubscribe (s : State) (transactionId : String) (r : Nat) : State :=
  let (called, events) := Banking.unsubscribe transactionId r s.events
  ({ s with events }).call called

end State

/-- The lookup may end so: a row that is found has the `transactionId` that was looked up. -/
def LookupResult.answers (transactionId : String) : LookupResult → Bool
  | .found transaction _ => transaction.transactionId = transactionId
  | _ => true

/-- One step of the process. -/
def step (s : State) : Action → Option State
  | .request r transactionId auth =>
    match s.handler r with
    | none => some (({ s with
        handler := Function.update s.handler r (some (.initial transactionId auth)) }).subscribe
          transactionId r)
    | some _ => none
  | .lookup r result =>
    match s.handler r with
    | some h =>
      if h.lookup.isNone && result.answers h.transactionId then
        let s := if Handler.isRefused h.auth result then s.unsubscribe h.transactionId r else s
        some (s.modify r (Handler.resume result))
      else none
    | none => none
  | .publish event =>
    match publishRealtimeEvent event s.events with
    | some called => some (s.call called)
    | none => some s
  | .heartbeat r =>
    match s.handler r with
    | some h =>
      if h.heartbeat then
        some (s.modify r fun h ↦ { h with response := h.response.write .heartbeat })
      else none
    | none => none
  | .disconnect r =>
    match s.handler r with
    | some h =>
      if h.disconnected then none
      else
        let s := s.modify r Handler.disconnect
        some (if h.onClose then s.unsubscribe h.transactionId r else s)
    | none => none

end Banking.EventStream
