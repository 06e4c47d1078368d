import AmxxMqtt.Lib.Gate
import AmxxMqtt.NativeReturns
import AmxxMqtt.HandleHistory

/-!
# What happens in a run

A run of the module leaves a history, newest event first: native calls with what they returned
and did, what happened at the event queue, forwards executed, clients destructed, tables reset.
The views below read off it what the guarantees are about: offers at the queue (`gateLog`),
client handles (`handleLog`), registered forwards (`forwardLog`), the id last stored for a
callback (`lastStored`).
-/

namespace AmxxMqtt

/-- A thread that calls the callback dispatcher. -/
inductive Producer where
  | gameThread
  | worker (number : Nat)
  deriving DecidableEq, Repr

/-- One call of a producer entry point.  `serial` tells calls apart; `source` is the client
object whose handler made the call, if a client did. -/
structure Offer where
  serial : Nat
  producer : Producer
  source : Option ObjectId
  call : DispatcherCall
  deriving DecidableEq

/-- The event offered to the queue. -/
def Offer.event (offer : Offer) : CallbackEvent :=
  offer.call.event

/-- What happens to the forwards AMXX holds for the module: registered with their argument kinds,
unregistered. -/
abbrev ForwardEvent := Names.Event Int (List ForwardParam)

/-- A native call that returned. -/
structure NativeCall (P : PahoOptions) where
  native : Native
  host : Host
  params : List Cell
  value : Cell
  effects : List (Effect P)

/-- The record a native's return leaves in the history. -/
def NativeReturn.asCall {P : PahoOptions} (r : NativeReturn P) (native : Native) (host : Host)
    (params : List Cell) : NativeCall P :=
  ⟨native, host, params, r.value, r.effects⟩

inductive WorldEvent (P : PahoOptions) where
  | native (call : NativeCall P)
  | gate (event : Gate.Event Offer)
  | executed (offer : Offer) (id : Int) (args : List ForwardArg)
  | discarded (offer : Offer)
  | destructed (client : AmxxMqttClient)
  | clientsReset
  | optionsReset

abbrev History (P : PahoOptions) := List (WorldEvent P)

variable {P : PahoOptions}

/-! ## Views of one event -/

def Effect.object : Effect P → Option ObjectId
  | .constructed object => some object
  | _ => none

def Effect.dispatch : Effect P → Option (ObjectId × DispatcherCall)
  | .dispatched object call => some (object, call)
  | _ => none

def Effect.forwardEvent : Effect P → Option ForwardEvent
  | .registered id params => some (.issued id params)
  | .unregistered id => some (.retired id)
  | _ => none

/-- A successful `mqtt_create` issues the handle it returns, `mqtt_destroy` retires its argument
whether or not it is live. -/
def NativeCall.handleEvents (call : NativeCall P) : List HandleEvent :=
  match call.native with
  | .mqttCreate => (call.effects.filterMap Effect.object).map (.issued call.value)
  | .mqttDestroy => if call.value = 1 then call.params[1]?.toList.map .retired else []
  | _ => []

/-- The id a call of a callback native stored on this client for this kind of callback. -/
def NativeCall.stores (call : NativeCall P) (handle : Int) (type : CallbackType) : Option Int :=
  if call.native.callbackType = some type ∧ call.params[1]? = some handle then
    match call.effects with
    | .registered id _ :: _ => some id
    | _ => none
  else none

def WorldEvent.gateEvents : WorldEvent P → List (Gate.Event Offer)
  | .gate event => [event]
  | _ => []

def WorldEvent.handleEvents : WorldEvent P → List HandleEvent
  | .native call => call.handleEvents
  | .clientsReset => [.cleared]
  | _ => []

def WorldEvent.forwardEvents : WorldEvent P → List ForwardEvent
  | .native call => (call.effects.filterMap Effect.forwardEvent).reverse
  | .destructed client => (client.destructor.map .retired).reverse
  | _ => []

/-- The offers an event disposes of: executed, or found to have no forward to execute. -/
def WorldEvent.resolved : WorldEvent P → Option Offer
  | .executed offer _ _ | .discarded offer => some offer
  | _ => none

/-! ## Views of a history -/

/-- What happened at the event queue. -/
def gateLog (history : History P) : List (Gate.Event Offer) :=
  history.flatMap WorldEvent.gateEvents

/-- What happened to the client table. -/
def handleLog (history : History P) : List HandleEvent :=
  history.flatMap WorldEvent.handleEvents

/-- What happened to the forwards. -/
def forwardLog (history : History P) : List ForwardEvent :=
  history.flatMap WorldEvent.forwardEvents

/-- The offers disposed of, oldest first. -/
def resolvedOffers (history : History P) : List Offer :=
  (history.filterMap WorldEvent.resolved).reverse

/-- The offers whose forward was executed, oldest first. -/
def executedOffers : History P → List Offer
  | [] => []
  | .executed offer _ _ :: history => executedOffers history ++ [offer]
  | _ :: history => executedOffers history

/-- The id most recently stored on this client for this kind of callback. -/
def lastStored : History P → Int → CallbackType → Option Int
  | [], _, _ => none
  | .native call :: history, handle, type =>
      (call.stores handle type).or (lastStored history handle type)
  | _ :: history, handle, type => lastStored history handle type

@[simp] theorem gateLog_cons (event : WorldEvent P) (history : History P) :
    gateLog (event :: history) = event.gateEvents ++ gateLog history :=
  List.flatMap_cons

@[simp] theorem handleLog_cons (event : WorldEvent P) (history : History P) :
    handleLog (event :: history) = event.handleEvents ++ handleLog history :=
  List.flatMap_cons

@[simp] theorem forwardLog_cons (event : WorldEvent P) (history : History P) :
    forwardLog (event :: history) = event.forwardEvents ++ forwardLog history :=
  List.flatMap_cons

/-! Offers alone change no other view. -/

theorem handleLog_gates (gates : List (Gate.Event Offer)) (history : History P) :
    handleLog (gates.map .gate ++ history) = handleLog history := by
  induction gates with
  | nil => rfl
  | cons gate gates ih => exact ih

theorem forwardLog_gates (gates : List (Gate.Event Offer)) (history : History P) :
    forwardLog (gates.map .gate ++ history) = forwardLog history := by
  induction gates with
  | nil => rfl
  | cons gate gates ih => exact ih

theorem lastStored_gates (gates : List (Gate.Event Offer)) (history : History P) (handle : Int)
    (type : CallbackType) :
    lastStored (gates.map .gate ++ history) handle type = lastStored history handle type := by
  induction gates with
  | nil => rfl
  | cons gate gates ih => exact ih

theorem executedOffers_gates (gates : List (Gate.Event Offer)) (history : History P) :
    executedOffers (gates.map .gate ++ history) = executedOffers history := by
  induction gates with
  | nil => rfl
  | cons gate gates ih => exact ih

theorem gateLog_suffix {history longer : History P} (extended : history <:+ longer) :
    gateLog history <:+ gateLog longer := by
  rcases extended with ⟨newer, rfl⟩
  exact ⟨gateLog newer, List.flatMap_append.symm⟩

@[simp] theorem resolvedOffers_cons (event : WorldEvent P) (history : History P) :
    resolvedOffers (event :: history) = resolvedOffers history ++ event.resolved.toList := by
  cases resolved : event.resolved <;>
    simp only [resolvedOffers, List.filterMap_cons, resolved, List.reverse_cons, Option.toList_none,
      Option.toList_some, List.append_nil]

/-- A native offers at most one event, and that is what it does to the queue. -/
theorem Returns.dispatch_cases {host : Host} {params : List Cell} {g : Globals P} {native : Native}
    {r : NativeReturn P} (returns : Returns host params g native r) :
    (r.effects.filterMap Effect.dispatch = [] ∧ r.globals.queue = g.queue) ∨
      ∃ object call, r.effects.filterMap Effect.dispatch = [(object, call)] ∧
        r.globals.queue = g.queue.enqueueCallback call.event := by
  cases returns with
  | disconnectThrew arg live threw copied => exact .inr ⟨_, _, rfl, rfl⟩
  | stored =>
      refine .inl ⟨?_, rfl⟩
      simp [Effect.dispatch]
  | _ => exact .inl ⟨rfl, rfl⟩

/-- The ids unregistered, newest first. -/
def unregistered (history : History P) : List Int :=
  (forwardLog history).filterMap fun
    | .retired id => some id
    | _ => none

end AmxxMqtt
