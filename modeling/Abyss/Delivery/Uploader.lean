import Abyss.Delivery.Authentication
import Abyss.Delivery.Request
import Abyss.System.Machine

/-! HTTP delivery and failed-delivery persistence. Every operation is a task whose phases are its
await points, and the answers of the destination and of the file system come with the actions. -/
namespace Abyss.Delivery
open Abyss.Text Abyss.PluginProtocol Abyss.System

structure UploaderConfig (Time : Type) where
  authentication : AuthenticationConfig
  spoolEnabled : Bool
  /-- `DateTime::to_rfc3339`. -/
  rfc3339 : Time → Str
  /-- The displays of a status code and of a list of strings in debug form. -/
  statusText : Nat → Str
  debugText : List Str → Str

structure IngestEventsResponse where
  rejected : Nat
  errors : List Str

inductive Operation (Time : Type) where
  | deliver (event : AgentEvent Time)
  | replaySpool
  | setManagedBearerAndReplay (bearerToken audience : Str)
  | clearManagedBearer
  | status

/-- An operation that waits for the delivery lock. -/
inductive Job where
  | deliver (request : IngestEventsRequest)
  | replaySpool
  | setManagedBearerAndReplay (bearerToken audience : Str)
  | clearManagedBearer
  | status

inductive Reply where
  | delivered
  | replayed (replayed remaining : Nat)
  | cleared
  | status (state : DeliveryAuthenticationState) (spooledEvents : Nat)

/-- What a request is posted for: one event, or a record of the spool among the others. -/
inductive Purpose where
  | deliver
  | replay (posted : List SpoolRecord) (record : SpoolRecord) (rest : List SpoolRecord)

/-- Where the task of an operation is suspended. -/
inductive Phase where
  | locking (job : Job)
  | authenticating (request : IngestEventsRequest) (purpose : Purpose)
  | sending (request : IngestEventsRequest) (authentication : DeliveryAuthentication) (purpose : Purpose)
  | awaiting (request : IngestEventsRequest) (authentication : DeliveryAuthentication) (purpose : Purpose)
  | unauthorized (request : IngestEventsRequest) (authentication : DeliveryAuthentication) (purpose : Purpose)
  | installing (token audience : Str)
  | clearing
  | spoolDirectory (record : SpoolRecord)
  | spoolOpen (record : SpoolRecord)
  | spoolWrite (record : SpoolRecord)
  | spoolRead
  | removing (replayed : Nat)
  | replaceDirectory (replayed : Nat) (remaining : List SpoolRecord)
  | replaceOpen (replayed : Nat) (remaining : List SpoolRecord)
  | replaceWrite (replayed : Nat) (remaining written todo : List SpoolRecord)
  | replaceRename (replayed : Nat) (remaining : List SpoolRecord)
  | replaceCleanup (e : DeliveryPluginError)
  | counting
  | reporting (spooledEvents : Nat)
  | done (result : Except DeliveryPluginError Reply)

/-- What the credential of the requests went through. -/
inductive CredentialEvent where
  | installed (token audience : Str)
  | cleared
  | sent (authentication : DeliveryAuthentication) (state : DeliveryAuthenticationState)
  | refused (authentication : DeliveryAuthentication)
  | restarted

/-- The worker, its files and its tasks in the order of their start. The trace of the credential and
the lists at the end record the past: what the destination accepted, whose `deliver` returned `Ok`, and
what was appended to the spool. -/
structure Worker where
  runtime : AuthenticationRuntime
  lock : Option Nat
  tasks : List Phase
  spool : Option (List UInt8)
  temporary : Option (List UInt8)
  trace : List CredentialEvent
  accepted : List IngestEventsRequest
  acknowledged : List IngestEventsRequest
  appended : List SpoolRecord

/-- What an await ends with. A failed write has written the first `written` bytes. -/
inductive Outcome where
  | ok
  | failed (text : Str)
  | notFound
  | wrote (written : Nat) (text : Str)
  | answer (status : Nat) (body : Except Str IngestEventsResponse)

section Texts
variable {Time : Type} (config : UploaderConfig Time)

/-- The `Display` of an error, which the spool keeps as the reason. -/
def errorText : DeliveryPluginError → Str
  | .invalidDeliveryEndpoint text => "invalid delivery URL: ".toList ++ text
  | .invalidCredentialUpdate text => "invalid managed delivery credential: ".toList ++ text
  | .authenticationMutationUnsupported =>
      "delivery authentication mode does not accept runtime credential updates".toList
  | .authenticationUnavailable => "delivery authentication is not configured".toList
  | .translate text => "translate Agent event: ".toList ++ text
  | .request text => "deliver Agent event: ".toList ++ text
  | .httpStatus status => "delivery destination returned HTTP ".toList ++ config.statusText status
  | .response text => "decode delivery response: ".toList ++ text
  | .rejected rejected errors => "delivery destination rejected ".toList ++ (toString rejected).toList ++
      " events: ".toList ++ config.debugText errors
  | .spool detail => detail

/-- What `post` makes of an answer. -/
def classify (status : Nat) (body : Except Str IngestEventsResponse) : Except DeliveryPluginError Unit :=
  if 200 ≤ status ∧ status < 300 then
    match body with
    | .error text => .error (.response text)
    | .ok response =>
      if 0 < response.rejected ∨ response.errors ≠ [] then .error (.rejected response.rejected response.errors) else .ok ()
  else .error (.httpStatus status)

/-- The records of the spool, as a replay reads them. -/
def readSpool (body : List UInt8) : Option (List SpoolRecord) := (lines body).mapM SpoolRecord.fromSlice

end Texts

namespace Worker
variable {Time : Type} (config : UploaderConfig Time) (worker : Worker)

def goto (i : Nat) (phase : Phase) : Worker := { worker with tasks := worker.tasks.set i phase }

/-- Return, which releases the delivery lock. -/
def finish (i : Nat) (result : Except DeliveryPluginError Reply) : Worker :=
  { worker.goto i (.done result) with lock := none }

/-- Return an error of the spool. -/
def fail (i : Nat) (detail : Str) : Worker := worker.finish i (.error (.spool detail))

/-- `replace_spool`. -/
def replaceSpool (i replayed : Nat) (remaining : List SpoolRecord) : Worker :=
  if remaining = [] then worker.goto i (.removing replayed) else worker.goto i (.replaceDirectory replayed remaining)

/-- The loop of `replay_spool_locked`. -/
def replayNext (i : Nat) (posted rest : List SpoolRecord) : Worker :=
  match rest with
  | [] => worker.replaceSpool i posted.length []
  | record :: rest => worker.goto i (.authenticating record.request (.replay posted record rest))

/-- What follows a `post`. -/
def posted (i : Nat) (request : IngestEventsRequest) (purpose : Purpose) (result : Except DeliveryPluginError Unit) :
    Worker :=
  match purpose, result with
  | .deliver, .ok () => { worker.finish i (.ok .delivered) with acknowledged := worker.acknowledged ++ [request] }
  | .deliver, .error e =>
    if config.spoolEnabled then worker.goto i (.spoolDirectory ⟨errorText config e, request⟩) else worker.finish i (.error e)
  | .replay posted record rest, .ok () => worker.replayNext i (posted ++ [record]) rest
  | .replay posted record rest, .error _ => worker.replaceSpool i posted.length (record :: rest)

/-- The operation has the delivery lock, and runs up to its first await. -/
def locked (i : Nat) : Job → Worker
  | .deliver request => worker.goto i (.authenticating request .deliver)
  | .replaySpool => worker.goto i .spoolRead
  | .setManagedBearerAndReplay bearerToken audience =>
    match config.authentication.checkManagedBearer bearerToken audience with
    | .error e => worker.finish i (.error e)
    | .ok token => worker.goto i (.installing token audience)
  | .clearManagedBearer =>
    if config.authentication.mode = .managedBearer then worker.goto i .clearing
    else worker.finish i (.error .authenticationMutationUnsupported)
  | .status => worker.goto i .counting

/-- The authentication of a request and its answer. -/
def stepPost (i : Nat) : Phase → Outcome → Option Worker
  | .authenticating request purpose, .ok =>
    match config.authentication.forRequest worker.runtime with
    | none => some (worker.posted config i request purpose (.error .authenticationUnavailable))
    | some authentication => some (worker.goto i (.sending request authentication purpose))
  -- a header that cannot be built fails without a request
  | .sending request _ purpose, .failed text => some (worker.posted config i request purpose (.error (.request text)))
  | .sending request authentication purpose, .ok => some { worker.goto i (.awaiting request authentication purpose) with
      trace := worker.trace ++ [.sent authentication worker.runtime.state] }
  | .awaiting request _ purpose, .failed text => some (worker.posted config i request purpose (.error (.request text)))
  | .awaiting request authentication purpose, .answer status body =>
    if status = 401 then some (worker.goto i (.unauthorized request authentication purpose))
    else match classify status body with
      | .ok () => some (Worker.posted config { worker with accepted := worker.accepted ++ [request] } i request purpose (.ok ()))
      | .error e => some (worker.posted config i request purpose (.error e))
  | .unauthorized request authentication purpose, .ok => some (Worker.posted config { worker with
      runtime := config.authentication.markUnauthorized worker.runtime
      trace := worker.trace ++ [.refused authentication] } i request purpose (.error (.httpStatus 401)))
  | _, _ => none

/-- The append of one record. -/
def stepSpool (i : Nat) : Phase → Outcome → Option Worker
  | .spoolDirectory record, .ok => some (worker.goto i (.spoolOpen record))
  | .spoolDirectory _, .failed text => some (worker.fail i text)
  | .spoolOpen record, .ok => some { worker.goto i (.spoolWrite record) with spool := some (worker.spool.getD []) }
  | .spoolOpen _, .failed text => some (worker.fail i text)
  | .spoolWrite record, .ok => some { worker.finish i (.ok .delivered) with
      spool := some (worker.spool.getD [] ++ endLine record.toVec)
      appended := worker.appended ++ [record]
      acknowledged := worker.acknowledged ++ [record.request] }
  | .spoolWrite record, .wrote written text => some { worker.fail i text with
      spool := some (worker.spool.getD [] ++ (endLine record.toVec).take written) }
  | _, _ => none

/-- The read of the spool and its replacement. -/
def stepReplay (i : Nat) : Phase → Outcome → Option Worker
  | .spoolRead, .notFound => if worker.spool = none then some (worker.finish i (.ok (.replayed 0 0))) else none
  | .spoolRead, .failed text => some (worker.fail i text)
  | .spoolRead, .ok => worker.spool.map fun body =>
    match readSpool body with
    | none => worker.fail i "decode spool record".toList
    | some records => worker.replayNext i [] records
  | .removing replayed, .ok => some { worker.finish i (.ok (.replayed replayed 0)) with spool := none }
  | .removing _, .failed text => some (worker.fail i text)
  | .replaceDirectory replayed remaining, .ok => some (worker.goto i (.replaceOpen replayed remaining))
  | .replaceDirectory _ _, .failed text => some (worker.fail i text)
  | .replaceOpen replayed remaining, .ok =>
    some { worker.goto i (.replaceWrite replayed remaining [] remaining) with temporary := some [] }
  | .replaceOpen _ _, .failed text => some (worker.goto i (.replaceCleanup (.spool text)))
  | .replaceWrite replayed remaining written (record :: todo), .ok =>
    some { worker.goto i (.replaceWrite replayed remaining (written ++ [record]) todo) with
      temporary := some (worker.temporary.getD [] ++ endLine record.toVec) }
  | .replaceWrite _ _ _ (record :: _), .wrote written text => some { worker.goto i (.replaceCleanup (.spool text)) with
      temporary := some (worker.temporary.getD [] ++ (endLine record.toVec).take written) }
  | .replaceWrite replayed remaining _ [], .ok => some (worker.goto i (.replaceRename replayed remaining))
  | .replaceWrite _ _ _ [], .failed text => some (worker.goto i (.replaceCleanup (.spool text)))
  | .replaceRename replayed remaining, .ok => some { worker.finish i (.ok (.replayed replayed remaining.length)) with
      spool := worker.temporary
      temporary := none }
  | .replaceRename _ _, .failed text => some (worker.goto i (.replaceCleanup (.spool text)))
  | .replaceCleanup e, .ok => some { worker.finish i (.error e) with temporary := none }
  | .replaceCleanup e, .failed _ => some (worker.finish i (.error e))
  | _, _ => none

/-- The credential operations and the status. -/
def stepControl (i : Nat) : Phase → Outcome → Option Worker
  | .installing token audience, .ok => some { worker.goto i .spoolRead with
      runtime := AuthenticationConfig.installBearer token
      trace := worker.trace ++ [.installed token audience] }
  | .clearing, .ok => some { worker.finish i (.ok .cleared) with
      runtime := AuthenticationConfig.clearedBearer
      trace := worker.trace ++ [.cleared] }
  | .counting, .ok => some { worker.goto i (.reporting (lines (worker.spool.getD [])).length) with lock := none }
  | .counting, .failed text => some (worker.fail i text)
  | .reporting spooledEvents, .ok => some (worker.goto i (.done (.ok (.status worker.runtime.state spooledEvents))))
  | _, _ => none

/-- One step of a task. A task waits as long as another one has the lock. -/
def stepTask (i : Nat) (phase : Phase) (outcome : Outcome) : Option Worker :=
  match phase, outcome with
  | .locking job, .ok => if worker.lock = none then some ({ worker with lock := some i }.locked config i job) else none
  | phase, outcome => (worker.stepPost config i phase outcome).or <| (worker.stepSpool i phase outcome).or <|
      (worker.stepReplay i phase outcome).or (worker.stepControl i phase outcome)

end Worker

inductive Action (Time : Type) where
  | start (operation : Operation Time)
  | task (i : Nat) (outcome : Outcome)
  /-- The process ends, and a new one is started. -/
  | crash (credential : Str)

section Runs
variable {Time : Type} (config : UploaderConfig Time)

/-- A new task. The translation of an event comes before its lock. -/
def begin : Operation Time → Phase
  | .deliver event =>
    match IngestEventsRequest.tryFrom config.rfc3339 event with
    | .ok request => .locking (.deliver request)
    | .error text => .done (.error (.translate text))
  | .replaySpool => .locking .replaySpool
  | .setManagedBearerAndReplay bearerToken audience => .locking (.setManagedBearerAndReplay bearerToken audience)
  | .clearManagedBearer => .locking .clearManagedBearer
  | .status => .locking .status

def Worker.step (worker : Worker) : Action Time → Option Worker
  | .start operation => some { worker with tasks := worker.tasks ++ [begin config operation] }
  | .task i outcome => do worker.stepTask config i (← worker.tasks[i]?) outcome
  | .crash credential => some { worker with
      runtime := config.authentication.load credential
      lock := none
      tasks := []
      trace := worker.trace ++ [.restarted] }

/-- A worker that has just started, without a spool. -/
def Worker.initial (credential : Str) : Worker := ⟨config.authentication.load credential, none, [], none, none, [], [], [], []⟩

/-- An event to deliver in examples. -/
def sampleEvent : AgentEvent Unit where
  eventId := "e1".toList
  observedAt := ()
  device := ⟨"host".toList, "linux".toList, none⟩
  agent := ⟨"codex".toList, none⟩
  sessionId := "s1".toList
  responseId := none
  previousResponseId := none
  subagentId := none
  parentSubagentId := none
  turnId := none
  purpose := none
  llm := ⟨.openAi, "m".toList⟩
  side := .request
  omitted := []
  conversation := none
  path := "/v1/responses".toList
  headers := []
  tokenUsage := ⟨0, 0, 0, 0, 0, 0⟩
  attachments := []

end Runs
end Abyss.Delivery
