import AmxxMqtt.Host

/-!
# The callback queue

`pendingCallbacks` and `acceptingCallbacks` of `CallbackDispatcher.cpp` with their critical
sections, and the four producer entry points as the events they build.
-/

namespace AmxxMqtt

/-- An owned event waiting for the game thread. -/
structure CallbackEvent where
  type : CallbackType
  handle : Int
  text : Bytes
  reasonCode : ReasonCode := normalDisconnection
  topic : Bytes := []
  deriving DecidableEq, Repr

/-- A call of one of the four producer entry points. -/
inductive DispatcherCall where
  | connectedCallbackDispatcher (handle : Int)
  | messageCallbackDispatcher (handle : Int) (payload topic : Bytes)
  | connectionLostCallbackDispatcher (handle : Int) (reason : Bytes)
  | disconnectedCallbackDispatcher (handle : Int) (reasonCode : ReasonCode)
  deriving DecidableEq, Repr

/-- The event the call hands to `enqueueCallback`. -/
def DispatcherCall.event : DispatcherCall → CallbackEvent
  | .connectedCallbackDispatcher handle => { type := .connected, handle, text := [] }
  | .messageCallbackDispatcher handle payload topic =>
      { type := .message, handle, text := payload, topic }
  | .connectionLostCallbackDispatcher handle reason =>
      { type := .connectionLost, handle, text := reason }
  | .disconnectedCallbackDispatcher handle reasonCode =>
      { type := .disconnected, handle, text := [], reasonCode }

/-- The state `callbackMutex` guards. -/
structure CallbackQueue where
  acceptingCallbacks : Bool
  pendingCallbacks : List CallbackEvent
  deriving DecidableEq

namespace CallbackQueue

/-- The state of the static variables at load. -/
def initial : CallbackQueue := ⟨false, []⟩

/-- `maxCallbacksPerFrame`. -/
def maxCallbacksPerFrame : Nat := 256

def enqueueCallback (event : CallbackEvent) (queue : CallbackQueue) : CallbackQueue :=
  if queue.acceptingCallbacks then
    { queue with pendingCallbacks := queue.pendingCallbacks ++ [event] }
  else queue

def startCallbackDispatcher (queue : CallbackQueue) : CallbackQueue :=
  { queue with acceptingCallbacks := true }

def stopCallbackDispatcher (_ : CallbackQueue) : CallbackQueue :=
  { acceptingCallbacks := false, pendingCallbacks := [] }

/-- The first critical section of `ProcessPendingCallbacks`. -/
def batchSize (queue : CallbackQueue) : Nat :=
  min queue.pendingCallbacks.length maxCallbacksPerFrame

/-- The critical section of its loop: `none` is the `return`. -/
def takeFront (queue : CallbackQueue) : Option (CallbackEvent × CallbackQueue) :=
  if queue.acceptingCallbacks then
    match queue.pendingCallbacks with
    | [] => none
    | event :: rest => some (event, { queue with pendingCallbacks := rest })
  else none

theorem enqueueCallback_of_not_accepting {queue : CallbackQueue} (event : CallbackEvent)
    (closed : queue.acceptingCallbacks = false) : queue.enqueueCallback event = queue := by
  simp only [enqueueCallback, closed, Bool.false_eq_true, ↓reduceIte]

theorem enqueueCallback_of_accepting {queue : CallbackQueue} (event : CallbackEvent)
    (accepting : queue.acceptingCallbacks = true) :
    queue.enqueueCallback event =
      ⟨true, queue.pendingCallbacks ++ [event]⟩ := by
  simp only [enqueueCallback, accepting, ↓reduceIte]

/-- A take succeeds exactly on an accepting queue, and removes its front. -/
theorem takeFront_eq_some_iff {queue rest : CallbackQueue} {event : CallbackEvent} :
    queue.takeFront = some (event, rest) ↔
      queue = ⟨true, event :: rest.pendingCallbacks⟩ ∧ rest.acceptingCallbacks = true := by
  rcases queue with ⟨accepting, pending⟩
  rcases rest with ⟨restAccepting, restPending⟩
  cases accepting <;> cases pending <;> simp [takeFront]
  grind

end CallbackQueue

end AmxxMqtt
