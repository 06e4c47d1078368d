import AmxxMqtt.CallbackQueue

/-!
# `MqttClient` and `AmxxMqttClient`

A client reacts to Paho through short bodies of statements: store the connection flag, copy a
handler under the client's mutex, invoke the copy.  `PahoCallback.body` lists them callback by
callback, so one body can be run in one go (`MqttClient.receive`) or interleaved with others
statement by statement.

`AmxxMqttClient` adds the four forward ids and the destructor that releases them.
-/

namespace AmxxMqtt

/-- What a user handler is called with; a value its callback does not carry is left at its
default. -/
structure Notification where
  cause : Bytes := []
  topic : Bytes := []
  payload : Bytes := []
  reasonCode : ReasonCode := normalDisconnection
  deriving DecidableEq, Repr

/-- Paho's calls into a client: the four callbacks it installs at construction and the two
methods of the action listener it passes to `disconnect`. -/
inductive PahoCallback where
  | connected (cause : Bytes)
  | message (topic payload : Bytes)
  | connectionLost (cause : Bytes)
  | disconnected (reasonCode : ReasonCode)
  | onSuccess (token : Token)
  | onFailure (token : Token)
  deriving DecidableEq, Repr

/-- One statement of a callback. -/
inductive Statement where
  /-- `m_bIsConnected = value` -/
  | storeConnected (value : Bool)
  /-- `copyHandler(m_..Handler)`, under the client's mutex -/
  | copyHandler (type : CallbackType)
  /-- call the copy, if there is one -/
  | invokeHandler
  deriving DecidableEq, Repr

def notifyDisconnect : List Statement :=
  [.copyHandler .disconnected, .invokeHandler]

/-- The statements of each callback, in order. -/
def PahoCallback.body : PahoCallback → List Statement
  | .connected _ => [.storeConnected true, .copyHandler .connected, .invokeHandler]
  | .message _ _ => [.copyHandler .message, .invokeHandler]
  | .connectionLost _ => [.storeConnected false, .copyHandler .connectionLost, .invokeHandler]
  | .disconnected _ => [.storeConnected false, .copyHandler .disconnected, .invokeHandler]
  | .onSuccess _ => .storeConnected false :: notifyDisconnect
  | .onFailure _ => notifyDisconnect

/-- What the callback passes to the handler it invokes. -/
def PahoCallback.notification : PahoCallback → Notification
  | .connected cause | .connectionLost cause => { cause }
  | .message topic payload => { topic, payload }
  | .disconnected reasonCode => { reasonCode }
  | .onSuccess _ | .onFailure _ => { reasonCode := normalDisconnection }

/-- The handler a callback copies. -/
def PahoCallback.type : PahoCallback → CallbackType
  | .connected _ => .connected
  | .message _ _ => .message
  | .connectionLost _ => .connectionLost
  | .disconnected _ | .onSuccess _ | .onFailure _ => .disconnected

/-- The value a callback stores in the connection flag, if it stores one. -/
def PahoCallback.stored : PahoCallback → Option Bool
  | .connected _ => some true
  | .connectionLost _ | .disconnected _ | .onSuccess _ => some false
  | .message _ _ | .onFailure _ => none

/-- The pending request a callback completes, if it completes one. -/
def PahoCallback.completes : PahoCallback → Option Token
  | .onSuccess token | .onFailure token => some token
  | _ => none

/-- Every callback stores its flag first, then copies its handler and invokes the copy. -/
theorem PahoCallback.body_eq (callback : PahoCallback) :
    callback.body = callback.stored.toList.map .storeConnected ++
      [.copyHandler callback.type, .invokeHandler] := by
  cases callback <;> rfl

/-! ## The client -/

/-- An `MqttClient` whose user handlers are values of `H`. -/
structure MqttClient (H : Type) where
  isConnected : Bool := false
  stopping : Bool := false
  connectedHandler : Option H := none
  messageHandler : Option H := none
  connectionLostHandler : Option H := none
  disconnectedHandler : Option H := none
  deriving DecidableEq

namespace MqttClient

variable {H : Type}

def setConnectedHandler (handler : Option H) (client : MqttClient H) : MqttClient H :=
  { client with connectedHandler := handler }

def setMessageHandler (handler : Option H) (client : MqttClient H) : MqttClient H :=
  { client with messageHandler := handler }

def setConnectionLostHandler (handler : Option H) (client : MqttClient H) : MqttClient H :=
  { client with connectionLostHandler := handler }

def setDisconnectHandler (handler : Option H) (client : MqttClient H) : MqttClient H :=
  { client with disconnectedHandler := handler }

/-- The setter of each kind of handler. -/
def setHandler : CallbackType → Option H → MqttClient H → MqttClient H
  | .connected => setConnectedHandler
  | .message => setMessageHandler
  | .connectionLost => setConnectionLostHandler
  | .disconnected => setDisconnectHandler

/-- The installed handler of each kind. -/
def handler (client : MqttClient H) : CallbackType → Option H
  | .connected => client.connectedHandler
  | .message => client.messageHandler
  | .connectionLost => client.connectionLostHandler
  | .disconnected => client.disconnectedHandler

/-- `copyHandler`: an empty handler once `m_stopping` is set. -/
def copyHandler (client : MqttClient H) (type : CallbackType) : Option H :=
  if client.stopping then none else client.handler type

/-- Run one statement: the client after it, the copy its callback holds, and the handler it
invokes. -/
def execute (client : MqttClient H) (copy : Option H) :
    Statement → MqttClient H × Option H × Option H
  | .storeConnected value => ({ client with isConnected := value }, copy, none)
  | .copyHandler type => (client, client.copyHandler type, none)
  | .invokeHandler => (client, none, copy)

/-- Run statements in one go: the client after them and the handlers invoked. -/
def executeAll : MqttClient H → Option H → List Statement → MqttClient H × List H
  | client, _, [] => (client, [])
  | client, copy, statement :: rest =>
      let (client', copy', invoked) := client.execute copy statement
      let (final, later) := executeAll client' copy' rest
      (final, invoked.toList ++ later)

/-- A whole Paho callback taken as one step. -/
def receive (client : MqttClient H) (callback : PahoCallback) : MqttClient H × List H :=
  client.executeAll none callback.body

/-- `disconnect`: Paho accepts the request, or throws.  Only an `mqtt::exception` is caught. -/
def disconnect (client : MqttClient H) : Option Thrown → Except Thrown (MqttClient H × List H)
  | none => .ok (client, [])
  | some (.mqtt _) => .ok (client.executeAll none AmxxMqtt.notifyDisconnect)
  | some .other => .error .other

@[simp] theorem setHandler_isConnected (type : CallbackType) (installed : Option H)
    (client : MqttClient H) :
    (client.setHandler type installed).isConnected = client.isConnected := by
  cases type <;> rfl

@[simp] theorem setHandler_stopping (type : CallbackType) (installed : Option H)
    (client : MqttClient H) : (client.setHandler type installed).stopping = client.stopping := by
  cases type <;> rfl

theorem handler_setHandler (type other : CallbackType) (installed : Option H)
    (client : MqttClient H) :
    (client.setHandler type installed).handler other =
      if other = type then installed else client.handler other := by
  cases type <;> cases other <;> rfl

@[simp] theorem copyHandler_storeConnected (client : MqttClient H) (value : Bool)
    (type : CallbackType) :
    ({ client with isConnected := value } : MqttClient H).copyHandler type =
      client.copyHandler type := by
  cases type <;> rfl

theorem executeAll_notifyDisconnect (client : MqttClient H) :
    client.executeAll none AmxxMqtt.notifyDisconnect =
      (client, (client.copyHandler .disconnected).toList) := by
  simp only [AmxxMqtt.notifyDisconnect, executeAll, execute, Option.toList_none, List.nil_append,
    List.append_nil]

/-- A callback stores its flag, if any, and invokes the handler of its kind, if there is one. -/
theorem receive_eq (client : MqttClient H) (callback : PahoCallback) :
    client.receive callback =
      ({ client with isConnected := callback.stored.getD client.isConnected },
        (client.copyHandler callback.type).toList) := by
  cases callback <;>
    simp [receive, PahoCallback.body, executeAll, execute, PahoCallback.stored,
      PahoCallback.type, AmxxMqtt.notifyDisconnect]

end MqttClient

/-! ## Handlers bound by the manager -/

/-- The lambda the manager installs for one kind of callback: it captures the handle. -/
structure BoundHandler where
  type : CallbackType
  handle : Int
  deriving DecidableEq, Repr

/-- Calling the lambda calls the dispatcher of its kind with the captured handle. -/
def BoundHandler.invoke (handler : BoundHandler) (notification : Notification) : DispatcherCall :=
  match handler.type with
  | .connected => .connectedCallbackDispatcher handler.handle
  | .message =>
      .messageCallbackDispatcher handler.handle notification.payload notification.topic
  | .connectionLost => .connectionLostCallbackDispatcher handler.handle notification.cause
  | .disconnected => .disconnectedCallbackDispatcher handler.handle notification.reasonCode

@[simp] theorem BoundHandler.invoke_handle (handler : BoundHandler)
    (notification : Notification) :
    (handler.invoke notification).event.handle = handler.handle := by
  unfold BoundHandler.invoke
  split <;> rfl

/-! ## The AMXX client -/

/-- An `AmxxMqttClient`: a client and its four forward ids, `-1` for none. -/
structure AmxxMqttClient where
  object : ObjectId
  base : MqttClient BoundHandler := {}
  onConnectedForwardId : Int := -1
  onMessageForwardId : Int := -1
  onConnectionLostForwardId : Int := -1
  onDisconnectForwardId : Int := -1
  deriving DecidableEq

namespace AmxxMqttClient

def setOnConnectedForwardId (id : Int) (client : AmxxMqttClient) : AmxxMqttClient × List Int :=
  ({ client with onConnectedForwardId := id }, [])

/-- The one setter that unregisters the id it overwrites. -/
def setOnMessageForwardId (id : Int) (client : AmxxMqttClient) : AmxxMqttClient × List Int :=
  ({ client with onMessageForwardId := id },
    if client.onMessageForwardId ≠ -1 ∧ client.onMessageForwardId ≠ id then
      [client.onMessageForwardId] else [])

def setOnConnectionLostForwardId (id : Int) (client : AmxxMqttClient) :
    AmxxMqttClient × List Int :=
  ({ client with onConnectionLostForwardId := id }, [])

def setDisconnectForwardId (id : Int) (client : AmxxMqttClient) : AmxxMqttClient × List Int :=
  ({ client with onDisconnectForwardId := id }, [])

/-- The setter of each kind: the client after it and the ids it unregisters. -/
def setForwardId : CallbackType → Int → AmxxMqttClient → AmxxMqttClient × List Int
  | .connected => setOnConnectedForwardId
  | .message => setOnMessageForwardId
  | .connectionLost => setOnConnectionLostForwardId
  | .disconnected => setDisconnectForwardId

/-- The getter of each kind. -/
def forwardId (client : AmxxMqttClient) : CallbackType → Int
  | .connected => client.onConnectedForwardId
  | .message => client.onMessageForwardId
  | .connectionLost => client.onConnectionLostForwardId
  | .disconnected => client.onDisconnectForwardId

/-- The ids held in a slot. -/
def held (id : Int) : List Int :=
  if id ≠ -1 then [id] else []

/-- The ids `~AmxxMqttClient` passes to `MF_UnregisterSPForward`, in order. -/
def destructor (client : AmxxMqttClient) : List Int :=
  held client.onConnectedForwardId ++ held client.onMessageForwardId ++
    held client.onConnectionLostForwardId ++ held client.onDisconnectForwardId

/-- The forwards a client has: its four slots, without the empty ones. -/
def slots (client : AmxxMqttClient) : List Int :=
  [client.forwardId .connected, client.forwardId .message, client.forwardId .connectionLost,
    client.forwardId .disconnected].filter (· ≠ -1)

/-- The ids a setter of this kind overwrites without unregistering them. -/
def leakedBy (client : AmxxMqttClient) (type : CallbackType) : List Int :=
  if type = .message then [] else held (client.forwardId type)

theorem forwardId_setForwardId (type other : CallbackType) (id : Int) (client : AmxxMqttClient) :
    (client.setForwardId type id).1.forwardId other =
      if other = type then id else client.forwardId other := by
  cases type <;> cases other <;> rfl

@[simp] theorem setForwardId_object (type : CallbackType) (id : Int) (client : AmxxMqttClient) :
    (client.setForwardId type id).1.object = client.object := by
  cases type <;> rfl

@[simp] theorem setForwardId_base (type : CallbackType) (id : Int) (client : AmxxMqttClient) :
    (client.setForwardId type id).1.base = client.base := by
  cases type <;> rfl

theorem mem_held_iff {id slot : Int} : id ∈ held slot ↔ id ≠ -1 ∧ slot = id := by
  unfold held
  split
  · rename_i valid
    rw [List.mem_singleton]
    exact ⟨fun same => ⟨same ▸ valid, same.symm⟩, fun both => both.2.symm⟩
  · rename_i empty
    simp only [List.not_mem_nil, false_iff, not_and]
    rintro valid rfl
    exact empty valid

theorem filter_cons_held (id : Int) (ids : List Int) :
    (id :: ids).filter (· ≠ -1) = held id ++ ids.filter (· ≠ -1) := by
  by_cases valid : id = -1 <;> simp [held, valid]

/-- **The destructor releases every slot.** -/
theorem destructor_eq_slots : destructor = slots := by
  funext client
  simp only [destructor, slots, filter_cons_held, forwardId, List.filter_nil, List.append_nil,
    List.append_assoc]

/-- The destructor releases exactly the ids in the four slots. -/
theorem mem_destructor_iff {client : AmxxMqttClient} {id : Int} :
    id ∈ client.destructor ↔ id ≠ -1 ∧ ∃ type, client.forwardId type = id := by
  simp only [destructor, List.mem_append, mem_held_iff, ← and_or_left]
  refine and_congr_right fun _ => ⟨?_, ?_⟩
  · rintro (((slot | slot) | slot) | slot)
    exacts [⟨.connected, slot⟩, ⟨.message, slot⟩, ⟨.connectionLost, slot⟩, ⟨.disconnected, slot⟩]
  · rintro ⟨type, slot⟩
    cases type
    exacts [.inl (.inl (.inl slot)), .inl (.inl (.inr slot)), .inl (.inr slot), .inr slot]

/-- What a setter releases and what it leaks is what its slot held, unless it stores that very
id again. -/
theorem released_append_leaked {client : AmxxMqttClient} {id : Int} (type : CallbackType)
    (fresh : id ∉ client.destructor) :
    (client.setForwardId type id).2 ++ client.leakedBy type = held (client.forwardId type) := by
  cases type with
  | message =>
      have different : client.onMessageForwardId ≠ -1 → client.onMessageForwardId ≠ id := by
        intro valid same
        exact fresh (mem_destructor_iff.mpr ⟨same ▸ valid, .message, same⟩)
      simp only [setForwardId, setOnMessageForwardId, leakedBy, forwardId, held, List.append_nil,
        ↓reduceIte]
      by_cases valid : client.onMessageForwardId = -1
      · simp only [valid, ne_eq, not_true_eq_false, false_and, ↓reduceIte]
      · simp only [ne_eq, valid, not_false_eq_true, different valid, and_self, ↓reduceIte]
  | connected => rfl
  | connectionLost => rfl
  | disconnected => rfl

/-- Storing a fresh id: the ids held before and the new one are those held after, those the
setter released and those it leaked. -/
theorem setForwardId_perm {client : AmxxMqttClient} {id : Int} (type : CallbackType)
    (valid : id ≠ -1) (fresh : id ∉ client.destructor) :
    List.Perm (id :: client.destructor)
      ((client.setForwardId type id).1.destructor ++
        ((client.setForwardId type id).2 ++ client.leakedBy type)) := by
  have new : held id = [id] := if_pos valid
  rw [released_append_leaked type fresh, List.perm_iff_count]
  intro other
  cases type <;>
    simp only [setForwardId, setOnConnectedForwardId, setOnMessageForwardId,
      setOnConnectionLostForwardId, setDisconnectForwardId, destructor, forwardId, new,
      List.count_cons, List.count_append, List.count_nil] <;> omega

end AmxxMqttClient

end AmxxMqtt
