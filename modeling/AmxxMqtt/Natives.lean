import AmxxMqtt.MqttClientMgr
import AmxxMqtt.ConnectOptionMgr
import AmxxMqtt.RehldsFrameHook

/-!
# The exported natives

Each native is a function of its environment, its argument frame and the module's global state.
Reading an argument cell past the end of the frame is a fault, as is an exception no `catch`
stops; otherwise the native returns a cell, the state after it and what it did outside: the
forwards it registered and unregistered, the errors it logged, its requests to Paho and its calls
of the callback dispatcher.
-/

namespace AmxxMqtt

/-- The module's global state. -/
structure Globals (P : PahoOptions) where
  queue : CallbackQueue
  clients : MqttClientMgr
  options : ConnectOptionMgr P
  frameHook : FrameHook

def Globals.initial {P : PahoOptions} : Globals P :=
  ⟨.initial, .initial, .initial, .initial⟩

/-- What a native does outside the module's own state. -/
inductive Effect (P : PahoOptions) where
  | constructed (object : ObjectId)
  | registered (id : Int) (params : List ForwardParam)
  | unregistered (id : Int)
  | logError (error : NativeError)
  | request (object : ObjectId) (request : PahoRequest P)
  | dispatched (object : ObjectId) (call : DispatcherCall)

/-- A native's return.  `removed` is the client it extracted from the table, whose destructor
runs before the native is back in Pawn. -/
structure NativeReturn (P : PahoOptions) where
  value : Cell
  globals : Globals P
  effects : List (Effect P) := []
  removed : Option AmxxMqttClient := none

inductive NativeFault where
  | argumentOutOfRange (index : Nat)
  | uncaughtException
  deriving DecidableEq

abbrev NativeOutcome (P : PahoOptions) := Except NativeFault (NativeReturn P)

/-! ## Argument frames -/

/-- The frame of these arguments: its size in bytes, then the arguments. -/
def frame (args : List Cell) : List Cell :=
  (4 * (args.length : Int)) :: args

/-- `ARG_COUNT`. -/
def argCount (params : List Cell) : Nat :=
  (params.headD 0 / 4).toNat

@[simp] theorem argCount_frame (args : List Cell) : argCount (frame args) = args.length := by
  simp only [argCount, frame, List.headD_cons]
  omega

@[simp] theorem frame_getElem?_succ (args : List Cell) (index : Nat) :
    (frame args)[index + 1]? = args[index]? := rfl

section Bodies

variable {P : PahoOptions}

/-- `params[index]`. -/
def readArg (params : List Cell) (index : Nat) (body : Cell → NativeOutcome P) :
    NativeOutcome P :=
  match params[index]? with
  | some cell => body cell
  | none => .error (.argumentOutOfRange index)

/-- `ARG_COUNT >= index ? params[index] : absent`. -/
def readOptionalArg (params : List Cell) (index : Nat) (absent : Cell)
    (body : Cell → NativeOutcome P) : NativeOutcome P :=
  if index ≤ argCount params then readArg params index body else body absent

/-- The return of a call that logs an error and returns 0. -/
def rejection (globals : Globals P) (error : NativeError) : NativeReturn P :=
  { value := 0, globals, effects := [.logError error] }

/-- `MF_LogError(amx, AMX_ERR_NATIVE, ..); return 0;` -/
def reject (globals : Globals P) (error : NativeError) : NativeOutcome P :=
  .ok (rejection globals error)

/-- Read the client handle, the first argument, and look it up. -/
def withClient (params : List Cell) (globals : Globals P)
    (body : Cell → AmxxMqttClient → NativeOutcome P) : NativeOutcome P :=
  readArg params 1 fun handle =>
    match globals.clients.getClient handle with
    | none => reject globals (.invalidClientHandle handle)
    | some client => body handle client

/-- Pass one request to Paho inside the native's `try`. -/
def submit (globals : Globals P) (client : AmxxMqttClient) (request : PahoRequest P) :
    Option Thrown → NativeOutcome P
  | none => .ok { value := 1, globals, effects := [.request client.object request] }
  | some (.mqtt exception) =>
      .ok { value := 0, globals
            effects := [.request client.object request, .logError (.exception exception)] }
  | some .other => .error .uncaughtException

/-! ## Clients -/

def mqttCreate (host : Host) (params : List Cell) (globals : Globals P) : NativeOutcome P :=
  if argCount params < 2 then reject globals (.tooFewArguments "mqtt_create") else
  readArg params 1 fun broker =>
  readArg params 2 fun clientId =>
  let construct := host.construct (host.string broker) (host.string clientId)
  match globals.clients.make construct with
  | (.ok handle, clients) =>
      .ok { value := handle, globals := { globals with clients }
            effects := construct.toOption.toList.map .constructed }
  | (.error (.mqtt exception), clients) => reject { globals with clients } (.exception exception)
  | (.error .other, _) => .error .uncaughtException

def mqttDestroy (_ : Host) (params : List Cell) (globals : Globals P) : NativeOutcome P :=
  if argCount params < 1 then reject globals (.tooFewArguments "mqtt_destroy") else
  readArg params 1 fun handle =>
  let (removed, clients) := globals.clients.destroy handle
  .ok { value := 1, globals := { globals with clients }, removed }

def mqttConnect (host : Host) (params : List Cell) (globals : Globals P) : NativeOutcome P :=
  if argCount params < 2 then reject globals (.tooFewArguments "mqtt_connect") else
  readArg params 2 fun optionsHandle =>
  withClient params globals fun _ client =>
  let (found, options) := globals.options.getOptions optionsHandle
  let globals := { globals with options }
  match found with
  | none => reject globals (.invalidOptionsHandle optionsHandle)
  | some option =>
      -- the `try` and the `catch` both destroy the options
      let consumed := { globals with options := globals.options.destroy optionsHandle }
      submit consumed client (.connect option.option) host.request

def mqttDisconnect (host : Host) (params : List Cell) (globals : Globals P) :
    NativeOutcome P :=
  if argCount params < 1 then reject globals (.tooFewArguments "mqtt_disconnect") else
  withClient params globals fun _ client =>
  match client.base.disconnect host.request with
  | .ok (_, invoked) =>
      let calls := invoked.map fun handler =>
        handler.invoke { reasonCode := normalDisconnection }
      let queue := calls.foldl (fun queue call => queue.enqueueCallback call.event) globals.queue
      .ok { value := 1, globals := { globals with queue }
            effects := .request client.object .disconnect ::
              calls.map (.dispatched client.object) }
  | .error (.mqtt exception) => reject globals (.exception exception)
  | .error .other => .error .uncaughtException

def mqttIsConnect (_ : Host) (params : List Cell) (globals : Globals P) : NativeOutcome P :=
  if argCount params < 1 then reject globals (.tooFewArguments "mqtt_is_connect") else
  withClient params globals fun _ client =>
  .ok { value := if client.base.isConnected then 1 else 0, globals }

/-! ## Requests -/

def mqttSubscribe (host : Host) (params : List Cell) (globals : Globals P) : NativeOutcome P :=
  if argCount params < 2 then reject globals (.tooFewArguments "mqtt_subscribe") else
  withClient params globals fun _ client =>
  readArg params 2 fun topic =>
  let topicName := host.string topic
  if topicName = [] then reject globals .emptyTopic else
  readOptionalArg params 3 0 fun qos =>
  if qos < 0 ∨ qos > 2 then reject globals (.invalidQos qos) else
  submit globals client (.subscribe (cString topicName) qos) host.request

def mqttUnsubscribe (host : Host) (params : List Cell) (globals : Globals P) :
    NativeOutcome P :=
  if argCount params < 2 then reject globals (.tooFewArguments "mqtt_unsubscribe") else
  withClient params globals fun _ client =>
  readArg params 2 fun topic =>
  let topicName := host.string topic
  if topicName = [] then reject globals .emptyTopic else
  submit globals client (.unsubscribe topicName) host.request

def mqttPublish (host : Host) (params : List Cell) (globals : Globals P) : NativeOutcome P :=
  if argCount params < 3 then reject globals (.tooFewArguments "mqtt_publish") else
  withClient params globals fun _ client =>
  readArg params 2 fun topic =>
  let topicName := host.string topic
  if topicName = [] then reject globals .emptyTopic else
  readArg params 3 fun data =>
  readOptionalArg params 4 0 fun retained =>
  readOptionalArg params 5 0 fun qos =>
  if qos < 0 ∨ qos > 2 then reject globals (.invalidQos qos) else
  submit globals client (.publish topicName (host.string data) qos (retained ≠ 0)) host.request

/-! ## Callbacks -/

/-- The common body of the four callback natives. -/
def setCallback (function : String) (type : CallbackType) (signature : List ForwardParam)
    (host : Host) (params : List Cell) (globals : Globals P) : NativeOutcome P :=
  if argCount params < 2 then reject globals (.tooFewArguments function) else
  withClient params globals fun handle client =>
  readArg params 2 fun name =>
  let callback := host.string name
  let forwardId := host.registerSPForwardByName callback signature
  if forwardId = -1 then reject globals (.missingCallback callback) else
  let (client, released) := client.setForwardId type forwardId
  .ok { value := 1
        globals := { globals with clients := globals.clients.setClient handle client }
        effects := .registered forwardId signature :: released.map .unregistered }

/-- The argument kinds each kind of callback is registered with. -/
def CallbackType.signature : CallbackType → List ForwardParam
  | .connected => [.cell]
  | .message => [.cell, .string, .string]
  | .connectionLost => [.cell, .string]
  | .disconnected => [.cell, .cell]

def mqttSetConnectedCallback (host : Host) (params : List Cell) (globals : Globals P) :
    NativeOutcome P :=
  setCallback "mqtt_set_connected_callback" .connected [.cell] host params globals

def mqttSetMessageCallback (host : Host) (params : List Cell) (globals : Globals P) :
    NativeOutcome P :=
  setCallback "mqtt_set_message_callback" .message [.cell, .string, .string] host params globals

def mqttSetConnectionLostCallback (host : Host) (params : List Cell) (globals : Globals P) :
    NativeOutcome P :=
  setCallback "mqtt_set_connection_lost_callback" .connectionLost [.cell, .string] host params
    globals

def mqttSetDisconnectedCallback (host : Host) (params : List Cell) (globals : Globals P) :
    NativeOutcome P :=
  setCallback "mqtt_set_disconnected_callback" .disconnected [.cell, .cell] host params globals

/-! ## Connect options -/

def mqttCreateConnectOptions (host : Host) (_ : List Cell) (globals : Globals P) :
    NativeOutcome P :=
  match globals.options.make host.optionsFailure with
  | (.ok index, options) => .ok { value := index, globals := { globals with options } }
  | (.error (.mqtt exception), options) => reject { globals with options } (.exception exception)
  | (.error .other, _) => .error .uncaughtException

/-- `MqttConnectOptionNames`. -/
inductive OptionName where
  | username
  | password
  | cleanStart
  | sessionExpiry
  deriving DecidableEq, Repr

/-- The enumerator a cell stands for. -/
def optionName (cell : Cell) : Option OptionName :=
  if cell = 0 then some .username
  else if cell = 1 then some .password
  else if cell = 2 then some .cleanStart
  else if cell = 3 then some .sessionExpiry
  else none

/-- One case of the switch of `mqtt_set_options`. -/
def ConnectOption.set (option : ConnectOption P) (host : Host) (value : Cell) :
    OptionName → ConnectOption P
  | .username => { option with option := P.setUserName (host.string value) option.option }
  | .password => { option with option := P.setPassword (host.string value) option.option }
  | .cleanStart =>
      { option with option := P.setCleanStart (host.getAmxAddr value > 0) option.option }
  | .sessionExpiry =>
      let properties :=
        P.addSessionExpiryInterval (host.getAmxAddr value) (P.clear option.properties)
      { option := P.setProperties properties option.option, properties }

def mqttSetOptions (host : Host) (params : List Cell) (globals : Globals P) :
    NativeOutcome P :=
  if argCount params < 3 then reject globals (.tooFewArguments "mqtt_set_options") else
  readArg params 1 fun optionsHandle =>
  let (found, options) := globals.options.getOptions optionsHandle
  let globals := { globals with options }
  match found with
  | none => reject globals (.invalidOptionsHandle optionsHandle)
  | some option =>
      readArg params 2 fun name =>
      match optionName name with
      | none => reject globals .invalidOptionName
      | some name =>
          readArg params 3 fun value =>
          let options := globals.options.setOption optionsHandle (option.set host value name)
          .ok { value := 1, globals := { globals with options } }

end Bodies

/-! ## The table of natives -/

/-- The entries of `g_natives`. -/
inductive Native where
  | mqttCreate
  | mqttDestroy
  | mqttConnect
  | mqttDisconnect
  | mqttIsConnect
  | mqttSubscribe
  | mqttUnsubscribe
  | mqttPublish
  | mqttSetConnectedCallback
  | mqttSetMessageCallback
  | mqttSetConnectionLostCallback
  | mqttSetDisconnectedCallback
  | mqttCreateConnectOptions
  | mqttSetOptions
  deriving DecidableEq, Repr

/-- The function each entry points to. -/
def Native.invoke {P : PahoOptions} :
    Native → Host → List Cell → Globals P → NativeOutcome P
  | .mqttCreate => AmxxMqtt.mqttCreate
  | .mqttDestroy => AmxxMqtt.mqttDestroy
  | .mqttConnect => AmxxMqtt.mqttConnect
  | .mqttDisconnect => AmxxMqtt.mqttDisconnect
  | .mqttIsConnect => AmxxMqtt.mqttIsConnect
  | .mqttSubscribe => AmxxMqtt.mqttSubscribe
  | .mqttUnsubscribe => AmxxMqtt.mqttUnsubscribe
  | .mqttPublish => AmxxMqtt.mqttPublish
  | .mqttSetConnectedCallback => AmxxMqtt.mqttSetConnectedCallback
  | .mqttSetMessageCallback => AmxxMqtt.mqttSetMessageCallback
  | .mqttSetConnectionLostCallback => AmxxMqtt.mqttSetConnectionLostCallback
  | .mqttSetDisconnectedCallback => AmxxMqtt.mqttSetDisconnectedCallback
  | .mqttCreateConnectOptions => AmxxMqtt.mqttCreateConnectOptions
  | .mqttSetOptions => AmxxMqtt.mqttSetOptions

/-- The kind of callback a native sets, if it sets one. -/
def Native.callbackType : Native → Option CallbackType
  | .mqttSetConnectedCallback => some .connected
  | .mqttSetMessageCallback => some .message
  | .mqttSetConnectionLostCallback => some .connectionLost
  | .mqttSetDisconnectedCallback => some .disconnected
  | _ => none

end AmxxMqtt
