import Abyss.Mitm.Hook.ContentDecoding
import Abyss.Mitm.WebSocket.Loop
import Abyss.System.Channels

/-! The hook dispatcher: submissions from all flows go through one bounded queue to one
worker task, which decodes an exchange and hands each event to the registered hooks. -/
namespace Abyss.Mitm.Hook
open Abyss.Text Abyss.System Abyss.Mitm.WebSocket Abyss.Mitm.Hook.ContentDecoder

section Events

inductive HookEvent (Flow Value : Type) where
  | httpExchange (exchange : HookExchange Flow Value)
  | webSocketMessage (message : WebSocketMessage Flow)

/-- The text of a failed callback. -/
abbrev HookError := Str

variable {Flow Value Hook : Type}

/-- The event as the hooks see it: an exchange that needs it is decoded first. -/
def HookEvent.prepared (env : DecodingEnv Value) : HookEvent Flow Value → HookEvent Flow Value
  | .httpExchange exchange => .httpExchange (workerStep env exchange)
  | .webSocketMessage message => .webSocketMessage message

/-- What the worker did with an event that it took from the queue: the hooks registered at that
time, the hooks it dispatched to, and which of them were enabled and matched the flow. -/
structure Delivery (Flow Value Hook : Type) where
  ticket : Nat
  taken : HookEvent Flow Value
  registered : List Hook
  snapshot : List Hook
  interested : List Bool
  decodeFailed : Bool

/-- One callback that a hook received. -/
structure HookCall (Flow Value : Type) where
  ticket : Nat
  hookIndex : Nat
  event : HookEvent Flow Value

/-- The callbacks that belong to a delivery, in hook order. -/
def Delivery.calls (env : DecodingEnv Value) (delivery : Delivery Flow Value Hook) : List (HookCall Flow Value) :=
  (delivery.interested.zipIdx.filter Prod.fst).map
    (fun answer => ⟨delivery.ticket, answer.2, delivery.taken.prepared env⟩)

end Events

section State

/-- Where the worker task is. A task that a panic unwound is `stopped` and runs no more. -/
inductive HookWorker (Flow Value Hook : Type) where
  | receiving
  | decoding (delivery : Delivery Flow Value Hook) (exchange : HookExchange Flow Value)
  | ready (delivery : Delivery Flow Value Hook) (event : HookEvent Flow Value)
  | dispatching (delivery : Delivery Flow Value Hook) (event : HookEvent Flow Value) (remaining : List (Hook × Nat))
      (lastError : Option HookError)
  | calling (delivery : Delivery Flow Value Hook) (event : HookEvent Flow Value) (remaining : List (Hook × Nat))
      (lastError : Option HookError)
  | stopped (delivery : Delivery Flow Value Hook)

/-- The dispatcher and its worker. `submitting` holds the submissions that found a hook registered and have
not sent yet. The answers, the finished deliveries and the calls are a record that no step reads, except
that the number of answers names the next event. -/
structure HookDispatcher (Flow Value Hook : Type) where
  hooks : List Hook
  queueCapacity : Nat
  sender : Option (BoundedChannel (Nat × HookEvent Flow Value))
  worker : HookWorker Flow Value Hook
  submitting : List (HookEvent Flow Value)
  answers : List (HookEvent Flow Value × HookDispatchStatus)
  finished : List (Delivery Flow Value Hook)
  calls : List (HookCall Flow Value)

variable {Flow Value Hook : Type}

/-- The delivery that the worker is at. -/
def HookWorker.delivery : HookWorker Flow Value Hook → Option (Delivery Flow Value Hook)
  | .receiving => none
  | .decoding delivery _ | .ready delivery _ | .dispatching delivery .. | .calling delivery .. | .stopped delivery =>
    some delivery

namespace HookDispatcher

def withCapacity (queueCapacity : Nat) : HookDispatcher Flow Value Hook :=
  ⟨[], queueCapacity, none, .receiving, [], [], [], []⟩

/-- `DEFAULT_HOOK_QUEUE_CAPACITY`. -/
def defaultHookQueueCapacity : Nat := 1024

def default : HookDispatcher Flow Value Hook := withCapacity defaultHookQueueCapacity

def waiting (dispatcher : HookDispatcher Flow Value Hook) : List (Nat × HookEvent Flow Value) :=
  (dispatcher.sender.map BoundedChannel.waiting).getD []

/-- Every event that was taken from the queue, in that order. -/
def deliveries (dispatcher : HookDispatcher Flow Value Hook) : List (Delivery Flow Value Hook) :=
  dispatcher.finished ++ dispatcher.worker.delivery.toList

end HookDispatcher

/-- How `enabled` and `matches` of a hook answer. -/
inductive HookInterest where
  | skip | observe | panic
  deriving DecidableEq, Repr

/-- How a callback ends. -/
inductive HookReply where
  | ok | failed (error : HookError) | panic
  deriving DecidableEq, Repr

/-- Everything that the environment decides: who runs next and how hooks and decode tasks behave. -/
inductive HookAction (Flow Value Hook : Type) where
  | push (hook : Hook)
  | submit (event : HookEvent Flow Value)
  | send (submission : Nat)
  | recv
  | decoded
  | decodeFailed
  | snapshot
  | ask (interest : HookInterest)
  | reply (reply : HookReply)
  | finish

def HookAction.panics : HookAction Flow Value Hook → Bool
  | .ask .panic | .reply .panic => true
  | _ => false

/-- The steps of the worker task. -/
def HookAction.ofWorker : HookAction Flow Value Hook → Bool
  | .push _ | .submit _ | .send _ => false
  | _ => true

end State

section Step
variable {Flow Value Hook : Type}

def sendStatus : TrySend → HookDispatchStatus
  | .sent => .enqueued
  | .full => .dropped
  | .closed => .closed

namespace HookDispatcher

/-- `get_or_init` of the worker and `try_send` of one submission. -/
def submitEvent (dispatcher : HookDispatcher Flow Value Hook) (submission : Nat) : Option (HookDispatcher Flow Value Hook) :=
  dispatcher.submitting[submission]?.map (fun event =>
    let channel := dispatcher.sender.getD (.new dispatcher.queueCapacity)
    let sent := channel.trySend (dispatcher.answers.length, event)
    { dispatcher with
      submitting := dispatcher.submitting.eraseIdx submission
      sender := some sent.2
      answers := dispatcher.answers ++ [(event, sendStatus sent.1)] })

/-- An exchange that is not ready goes to a blocking task first. -/
def take (dispatcher : HookDispatcher Flow Value Hook) (ticket : Nat) : HookEvent Flow Value → HookWorker Flow Value Hook
  | .httpExchange exchange =>
    let delivery := ⟨ticket, .httpExchange exchange, dispatcher.hooks, [], [], false⟩
    if requiresProcessing exchange then .decoding delivery exchange else .ready delivery (.httpExchange exchange)
  | .webSocketMessage message =>
    .ready ⟨ticket, .webSocketMessage message, dispatcher.hooks, [], [], false⟩ (.webSocketMessage message)

/-- A panic unwinds the worker task, which closes the queue. -/
def unwind (dispatcher : HookDispatcher Flow Value Hook) (delivery : Delivery Flow Value Hook) :
    HookDispatcher Flow Value Hook :=
  { dispatcher with worker := .stopped delivery, sender := dispatcher.sender.map BoundedChannel.close }

/-- One step of the dispatcher, of a submission or of `run_hook_worker`. -/
def step (env : DecodingEnv Value) (dispatcher : HookDispatcher Flow Value Hook) :
    HookAction Flow Value Hook → Option (HookDispatcher Flow Value Hook)
  | .push hook => some { dispatcher with hooks := dispatcher.hooks ++ [hook] }
  | .submit event =>
    if dispatcher.hooks.isEmpty then some { dispatcher with answers := dispatcher.answers ++ [(event, .noHooks)] }
    else some { dispatcher with submitting := dispatcher.submitting ++ [event] }
  | .send submission => dispatcher.submitEvent submission
  | .recv =>
    match dispatcher.worker, dispatcher.sender.bind BoundedChannel.recv with
    | .receiving, some ((ticket, event), rest) =>
      some { dispatcher with sender := some rest, worker := dispatcher.take ticket event }
    | _, _ => none
  | .decoded =>
    match dispatcher.worker with
    | .decoding delivery exchange =>
      some { dispatcher with worker := .ready delivery (.httpExchange (decodeExchange env exchange)) }
    | _ => none
  | .decodeFailed =>
    match dispatcher.worker with
    | .decoding delivery _ =>
      some { dispatcher with
        worker := .receiving
        finished := dispatcher.finished ++ [{ delivery with decodeFailed := true }] }
    | _ => none
  | .snapshot =>
    match dispatcher.worker with
    | .ready delivery event =>
      some { dispatcher with
        worker := .dispatching { delivery with snapshot := dispatcher.hooks } event dispatcher.hooks.zipIdx none }
    | _ => none
  | .ask interest =>
    match dispatcher.worker with
    | .dispatching delivery event ((_, hookIndex) :: remaining) lastError =>
      match interest with
      | .skip =>
        some { dispatcher with
          worker := .dispatching { delivery with interested := delivery.interested ++ [false] } event remaining lastError }
      | .observe =>
        some { dispatcher with
          worker := .calling { delivery with interested := delivery.interested ++ [true] } event remaining lastError
          calls := dispatcher.calls ++ [⟨delivery.ticket, hookIndex, event⟩] }
      | .panic => some (dispatcher.unwind delivery)
    | _ => none
  | .reply reply =>
    match dispatcher.worker with
    | .calling delivery event remaining lastError =>
      match reply with
      | .ok => some { dispatcher with worker := .dispatching delivery event remaining lastError }
      | .failed error => some { dispatcher with worker := .dispatching delivery event remaining (some error) }
      | .panic => some (dispatcher.unwind delivery)
    | _ => none
  | .finish =>
    match dispatcher.worker with
    | .dispatching delivery _ [] _ =>
      some { dispatcher with worker := .receiving, finished := dispatcher.finished ++ [delivery] }
    | _ => none

end HookDispatcher
end Step
end Abyss.Mitm.Hook
