import Mathlib.Data.List.Basic

/-!
# What the module is linked against

The AMXX core, the Paho MQTT client and the C++ runtime are not part of the module.  Their
values that cross the boundary are here: cells and strings, forwards and their argument kinds,
exceptions, the errors the natives log, and `Host`, one answer of the environment to everything
a single native call can ask.

Paho's connect options are kept abstract: `PahoOptions` is any implementation whose setters set
the field they name.
-/

namespace AmxxMqtt

/-- A Pawn `cell`. -/
abbrev Cell := Int

/-- The bytes of a `std::string`. -/
abbrev Bytes := List UInt8

/-- What a `char *` denotes: the bytes before the first NUL. -/
def cString (bytes : Bytes) : Bytes :=
  bytes.takeWhile (· ≠ 0)

/-- `mqtt::ReasonCode`. -/
abbrev ReasonCode := Int

/-- `mqtt::NORMAL_DISCONNECTION`. -/
def normalDisconnection : ReasonCode := 0

/-- `mqtt::token`, by its identity. -/
abbrev Token := Nat

/-- The identity of a constructed C++ object.  Unlike its address it is never reused. -/
abbrev ObjectId := Nat

/-! ## Forwards -/

/-- The four kinds of client callback, as in `CallbackType`. -/
inductive CallbackType where
  | connected
  | message
  | connectionLost
  | disconnected
  deriving DecidableEq, Repr

/-- `FP_CELL` and `FP_STRING`. -/
inductive ForwardParam where
  | cell
  | string
  deriving DecidableEq, Repr

/-- One argument of `MF_ExecuteForward`. -/
inductive ForwardArg where
  | cell (value : Cell)
  | string (value : Bytes)
  deriving DecidableEq, Repr

/-- The argument kind AMXX must have been told for this argument. -/
def ForwardArg.param : ForwardArg → ForwardParam
  | .cell _ => .cell
  | .string _ => .string

/-! ## Exceptions and logged errors -/

/-- `mqtt::exception`: its return code and its message. -/
structure PahoException where
  rc : Int
  message : String
  deriving DecidableEq, Repr

/-- What a call can throw: an `mqtt::exception`, which the natives catch, or anything else. -/
inductive Thrown where
  | mqtt (exception : PahoException)
  | other
  deriving DecidableEq, Repr

/-- The errors the natives pass to `MF_LogError` with `AMX_ERR_NATIVE`. -/
inductive NativeError where
  | tooFewArguments (function : String)
  | invalidClientHandle (handle : Cell)
  | invalidOptionsHandle (handle : Cell)
  | emptyTopic
  | invalidQos (qos : Int)
  | missingCallback (callback : Bytes)
  | exception (exception : PahoException)
  | invalidOptionName
  deriving DecidableEq, Repr

/-- A value formatted into a logged error. -/
inductive LogArg where
  | int (value : Int)
  | text (value : Bytes)
  | name (value : String)
  deriving DecidableEq, Repr

/-- The format string; `what` is Paho's text for an exception. -/
def NativeError.format (what : PahoException → String) : NativeError → String
  | .tooFewArguments _ => "Too few arguments to %s, the inc file incorrect?"
  | .invalidClientHandle _ => "Invalid mqtt client handle: %d"
  | .invalidOptionsHandle _ => "Invalid mqtt connect options handle: %d"
  | .emptyTopic => "Topic name could not be empty"
  | .invalidQos _ => "Invalid MQTT QoS: %d (expected 0, 1, or 2)"
  | .missingCallback _ => "Callback function \"%s\" is not exists"
  | .exception e => what e
  | .invalidOptionName => "Invalid option name"

/-- The values formatted into it. -/
def NativeError.arguments : NativeError → List LogArg
  | .tooFewArguments function => [.name function]
  | .invalidClientHandle handle | .invalidOptionsHandle handle => [.int handle]
  | .invalidQos qos => [.int qos]
  | .missingCallback callback => [.text callback]
  | .emptyTopic | .exception _ | .invalidOptionName => []

/-! ## Paho's connect options -/

/-- The fields of a connect request the module can set. -/
structure ConnectFields where
  userName : Option Bytes
  password : Option Bytes
  cleanStart : Bool
  sessionExpiry : Option Cell
  deriving DecidableEq, Repr

/-- `mqtt::connect_options` and `mqtt::properties`, as far as the module uses them: `fields` is
what a connect with these options sends, and each setter sets its own field. -/
structure PahoOptions where
  Options : Type
  Properties : Type
  /-- `connect_options{MQTTVERSION_5}` -/
  version5 : Options
  /-- `properties{}` -/
  noProperties : Properties
  fields : Options → ConnectFields
  setUserName : Bytes → Options → Options
  setPassword : Bytes → Options → Options
  setCleanStart : Bool → Options → Options
  setProperties : Properties → Options → Options
  clear : Properties → Properties
  /-- `add({SESSION_EXPIRY_INTERVAL, value})` -/
  addSessionExpiryInterval : Cell → Properties → Properties
  fields_setUserName : ∀ name options,
    fields (setUserName name options) = { fields options with userName := some name }
  fields_setPassword : ∀ password options,
    fields (setPassword password options) = { fields options with password := some password }
  fields_setCleanStart : ∀ clean options,
    fields (setCleanStart clean options) = { fields options with cleanStart := clean }
  fields_setProperties : ∀ value properties options,
    fields (setProperties (addSessionExpiryInterval value (clear properties)) options) =
      { fields options with sessionExpiry := some value }

/-- The options record itself, with a clean start and nothing else. -/
def PahoOptions.plain : PahoOptions where
  Options := ConnectFields
  Properties := List Cell
  version5 := ⟨none, none, true, none⟩
  noProperties := []
  fields := id
  setUserName name options := { options with userName := some name }
  setPassword password options := { options with password := some password }
  setCleanStart clean options := { options with cleanStart := clean }
  setProperties properties options := { options with sessionExpiry := properties.getLast? }
  clear _ := []
  addSessionExpiryInterval value properties := properties ++ [value]
  fields_setUserName _ _ := rfl
  fields_setPassword _ _ := rfl
  fields_setCleanStart _ _ := rfl
  fields_setProperties _ _ _ := rfl

/-- The requests a client passes to Paho. -/
inductive PahoRequest (P : PahoOptions) where
  | connect (options : P.Options)
  | disconnect
  | subscribe (topic : Bytes) (qos : Int)
  | unsubscribe (topic : Bytes)
  | publish (topic payload : Bytes) (qos : Int) (retained : Bool)

/-! ## One native call's environment -/

/-- The points at which building a connect-options object can fail. -/
inductive OptionsStage where
  | connectOptions
  | properties
  | connectOption
  | tableEntry
  deriving DecidableEq, Repr

/-- The answers the environment gives while one native call runs. -/
structure Host where
  /-- `MF_GetAmxString` of a parameter cell -/
  getAmxString : Cell → Bytes
  /-- the cell `MF_GetAmxAddr` of a parameter cell points to -/
  getAmxAddr : Cell → Cell
  /-- `MF_RegisterSPForwardByName` -/
  registerSPForwardByName : Bytes → List ForwardParam → Int
  /-- `make_unique<AmxxMqttClient>(broker, clientId)` -/
  construct : Bytes → Bytes → Except Thrown ObjectId
  /-- what the request the native makes of Paho throws -/
  request : Option Thrown
  /-- where, and with what, building a connect-options object fails -/
  optionsFailure : Option (OptionsStage × Thrown)

/-- An environment in which every string is empty, no callback exists and nothing throws. -/
def Host.plain : Host where
  getAmxString _ := []
  getAmxAddr cell := cell
  registerSPForwardByName _ _ := -1
  construct _ _ := .ok 0
  request := none
  optionsFailure := none

/-- An environment that registers every callback under this id. -/
def Host.registering (id : Int) : Host :=
  { Host.plain with registerSPForwardByName := fun _ _ => id }

/-- `std::string{MF_GetAmxString(..)}`: the string ends at the first NUL. -/
def Host.string (host : Host) (cell : Cell) : Bytes :=
  cString (host.getAmxString cell)

end AmxxMqtt
