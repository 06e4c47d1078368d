import Mathlib.Data.List.TakeWhile
import AmxxMqtt.ClientHistory
import AmxxMqtt.QueueHistory

/-!
# What Pawn receives

Producers hold messages and strings of their own and go on writing to them.  `Scene` puts their
memory beside the module: an entry point of the dispatcher reads it once, when it is called, and
whatever is executed later carries what was read then.
-/

namespace AmxxMqtt

variable {P : PahoOptions}

/-! ## Producers and their objects -/

/-- An `mqtt::message`. -/
structure Message where
  topic : Bytes
  payload : Bytes
  deriving DecidableEq, Repr

/-- What the messages and strings of the producers hold at a moment. -/
structure ProducerMemory where
  messages : Nat → Message
  strings : Nat → Bytes

/-- A call of a producer entry point, by references into the producer's memory. -/
inductive ProducerCall where
  | connectedCallbackDispatcher (handle : Int)
  | messageCallbackDispatcher (handle : Int) (message : Nat)
  | connectionLostCallbackDispatcher (handle : Int) (reason : Nat)
  | disconnectedCallbackDispatcher (handle : Int) (reasonCode : ReasonCode)
  deriving DecidableEq, Repr

/-- A Paho callback, by references into the memory of the worker that runs it. -/
inductive PahoCall where
  | connected (cause : Nat)
  | message (message : Nat)
  | connectionLost (cause : Nat)
  | disconnected (reasonCode : ReasonCode)
  | onSuccess (token : Token)
  | onFailure (token : Token)
  deriving DecidableEq, Repr

/-- The call with what its references hold. -/
def ProducerCall.read (memory : ProducerMemory) : ProducerCall → DispatcherCall
  | .connectedCallbackDispatcher handle => .connectedCallbackDispatcher handle
  | .messageCallbackDispatcher handle message =>
      .messageCallbackDispatcher handle (memory.messages message).payload
        (memory.messages message).topic
  | .connectionLostCallbackDispatcher handle reason =>
      .connectionLostCallbackDispatcher handle (memory.strings reason)
  | .disconnectedCallbackDispatcher handle reasonCode =>
      .disconnectedCallbackDispatcher handle reasonCode

def PahoCall.read (memory : ProducerMemory) : PahoCall → PahoCallback
  | .connected cause => .connected (memory.strings cause)
  | .message source => .message (memory.messages source).topic (memory.messages source).payload
  | .connectionLost cause => .connectionLost (memory.strings cause)
  | .disconnected reasonCode => .disconnected reasonCode
  | .onSuccess token => .onSuccess token
  | .onFailure token => .onFailure token

/-! ## What an event says -/

/-- The kind of event a call reports. -/
def DispatcherCall.type : DispatcherCall → CallbackType
  | .connectedCallbackDispatcher _ => .connected
  | .messageCallbackDispatcher _ _ _ => .message
  | .connectionLostCallbackDispatcher _ _ => .connectionLost
  | .disconnectedCallbackDispatcher _ _ => .disconnected

def DispatcherCall.handle : DispatcherCall → Int
  | .connectedCallbackDispatcher handle | .messageCallbackDispatcher handle _ _
  | .connectionLostCallbackDispatcher handle _ | .disconnectedCallbackDispatcher handle _ => handle

/-- The contents Pawn is to receive: the handle, then the topic and the payload, the reason or
the reason code; `denote` is what is received of a text. -/
def DispatcherCall.contents (denote : Bytes → Bytes) : DispatcherCall → List ForwardArg
  | .connectedCallbackDispatcher handle => [.cell handle]
  | .messageCallbackDispatcher handle payload topic =>
      [.cell handle, .string (denote topic), .string (denote payload)]
  | .connectionLostCallbackDispatcher handle reason => [.cell handle, .string (denote reason)]
  | .disconnectedCallbackDispatcher handle reasonCode => [.cell handle, .cell reasonCode]

/-- The texts among them. -/
def DispatcherCall.texts : DispatcherCall → List Bytes
  | .connectedCallbackDispatcher _ | .disconnectedCallbackDispatcher _ _ => []
  | .messageCallbackDispatcher _ payload topic => [topic, payload]
  | .connectionLostCallbackDispatcher _ reason => [reason]

/-- What a Paho callback of the client made under this handle reports. -/
def PahoCallback.report (handle : Int) : PahoCallback → DispatcherCall
  | .connected _ => .connectedCallbackDispatcher handle
  | .message topic payload => .messageCallbackDispatcher handle payload topic
  | .connectionLost cause => .connectionLostCallbackDispatcher handle cause
  | .disconnected reasonCode => .disconnectedCallbackDispatcher handle reasonCode
  | .onSuccess _ | .onFailure _ => .disconnectedCallbackDispatcher handle normalDisconnection

/-- The queued event keeps kind, handle and contents of the call. -/
theorem DispatcherCall.event_spec (call : DispatcherCall) :
    call.event.type = call.type ∧ call.event.handle = call.handle ∧
      call.event.args = call.contents cString := by
  cases call <;> exact ⟨rfl, rfl, rfl⟩

/-- The handler bound to a handle reports the callback that invoked it. -/
theorem PahoCallback.invoke_notification (callback : PahoCallback) (handle : Int) :
    (⟨callback.type, handle⟩ : BoundHandler).invoke callback.notification =
      callback.report handle := by
  cases callback <;> rfl

/-- A text without a NUL is received whole. -/
theorem cString_eq_self {bytes : Bytes} (whole : 0 ∉ bytes) : cString bytes = bytes := by
  refine List.takeWhile_eq_self_iff.mpr fun byte member => ?_
  exact decide_eq_true fun nul => whole (nul ▸ member)

theorem DispatcherCall.contents_eq_id {call : DispatcherCall}
    (whole : ∀ text ∈ call.texts, 0 ∉ text) : call.contents cString = call.contents id := by
  cases call with
  | messageCallbackDispatcher handle payload topic =>
      rw [contents, cString_eq_self (whole topic (by simp [texts])),
        cString_eq_self (whole payload (by simp [texts]))]
      rfl
  | connectionLostCallbackDispatcher handle reason =>
      rw [contents, cString_eq_self (whole reason (by simp [texts]))]
      rfl
  | _ => rfl

/-! ## Where offers come from -/

/-- What a step makes a producer offer. -/
inductive Action.Reports : Action → DispatcherCall → Prop
  | dispatched {worker : Nat} {call : DispatcherCall} : Reports (.dispatch worker call) call
  | notified {worker : Nat} {handle : Int} {object : ObjectId} {callback : PahoCallback} :
      Reports (.callback worker handle object callback) (callback.report handle)
  | disconnectThrew {host : Host} {args : List Cell} {handle : Cell}
      (arg : args[0]? = some handle) :
      Reports (.call (.native .mqttDisconnect host args))
        (.disconnectedCallbackDispatcher handle normalDisconnection)

namespace World

variable {w t : World P}

theorem offered_offerAll {producer : Producer} {source : Option ObjectId}
    {calls : List DispatcherCall} {offer : Offer}
    (member : offer ∈ Gate.offered (gateLog (w.offerAll producer source calls).history)) :
    offer ∈ Gate.offered (gateLog w.history) ∨ offer.call ∈ calls := by
  induction calls generalizing w with
  | nil => exact .inl member
  | cons call calls ih =>
      rcases ih member with first | later
      · rw [World.offer, offered_record] at first
        rcases List.mem_append.mp first with earlier | here
        · exact .inl earlier
        · rw [List.mem_singleton.mp here]
          exact .inr List.mem_cons_self
      · exact .inr (List.mem_cons_of_mem _ later)

theorem offered_recordAll {dispatches : List (ObjectId × DispatcherCall)} {offer : Offer}
    (member : offer ∈ Gate.offered (gateLog (w.recordAll dispatches).history)) :
    offer ∈ Gate.offered (gateLog w.history) ∨ ∃ object, (object, offer.call) ∈ dispatches := by
  induction dispatches generalizing w with
  | nil => exact .inl member
  | cons dispatch dispatches ih =>
      rcases ih member with first | ⟨object, later⟩
      · rw [offered_record] at first
        rcases List.mem_append.mp first with earlier | here
        · exact .inl earlier
        · rw [List.mem_singleton.mp here]
          exact .inr ⟨dispatch.1, List.mem_cons_self⟩
      · exact .inr ⟨object, List.mem_cons_of_mem _ later⟩

/-- A native that offers an event is a disconnect request in which Paho threw. -/
theorem reports_of_native {native : Native} {host : Host} {args : List Cell} {r : NativeReturn P}
    (valid : ClientsValid w) (returns : Returns host (frame args) w.globals native r)
    {object : ObjectId} {call : DispatcherCall}
    (member : (object, call) ∈ r.effects.filterMap Effect.dispatch) :
    Action.Reports (.call (.native native host args)) call := by
  cases returns with
  | @disconnectThrew handle client exception handler arg live threw copied =>
      obtain ⟨rfl, rfl⟩ := Prod.mk.inj (List.mem_singleton.mp member)
      have bound := valid.bound live
      rw [MqttClient.copyHandler, bound.running, if_neg (by simp), bound.handlers] at copied
      cases copied
      exact .disconnectThrew (frame_getElem?_succ args 0 ▸ arg)
  | stored => simp [Effect.dispatch] at member
  | _ => cases member

/-- A new offer is what the step reports. -/
theorem step_reports {action : Action} {offer : Offer} (stepped : w.step action = some t)
    (valid : ClientsValid w) (offered : offer ∈ Gate.offered (gateLog t.history)) :
    offer ∈ Gate.offered (gateLog w.history) ∨ action.Reports offer.call := by
  cases World.steps stepped with
  | native outside invoked admitted =>
      refine (offered_recordAll offered).imp_right ?_
      intro dispatched
      rcases dispatched with ⟨object, member⟩
      exact reports_of_native valid (Native.returns invoked) member
  | @callback worker handle object callback made =>
      refine (offered_offerAll offered).imp_right fun member => ?_
      obtain ⟨handler, isInvoked, same⟩ := List.mem_map.mp member
      have target : ((w.globals.clients.getClient handle).getD
          (MqttClientMgr.bound object handle)).BoundTo handle := by
        cases live : w.globals.clients.getClient handle with
        | none => exact MqttClientMgr.bound_boundTo object handle
        | some client => exact valid.bound live
      rw [World.invoked, (target.receive callback).1, List.mem_singleton] at isInvoked
      rw [← same, isInvoked, callback.invoke_notification]
      exact .notified
  | @dispatch worker call =>
      have single : offer ∈ Gate.offered (gateLog
          (w.offerAll (.worker worker) none [call]).history) := offered
      refine (offered_offerAll single).imp_right fun member => ?_
      rw [← List.mem_singleton.mp member]
      exact .dispatched
  | entered | ret | start | stop | resetClients | destruct | resetOptions | hook | unhook
  | process | drained | take | execute | discard => exact .inl offered

end World

/-! ## The module beside its producers -/

/-- The module and the memory of the producers. -/
structure Scene (P : PahoOptions) where
  world : World P
  memory : ProducerMemory

/-- A step of the module, or a producer's write to an object of its own. -/
inductive SceneAction where
  /-- a step that reads no object of a producer -/
  | step (action : Action)
  | dispatch (worker : Nat) (call : ProducerCall)
  | callback (worker : Nat) (handle : Int) (object : ObjectId) (call : PahoCall)
  | setMessage (message : Nat) (value : Message)
  | setString (string : Nat) (value : Bytes)

/-- The module's step, with what the producer's objects hold at this moment. -/
def SceneAction.read (memory : ProducerMemory) : SceneAction → Option Action
  | .step action => some action
  | .dispatch worker call => some (.dispatch worker (call.read memory))
  | .callback worker handle object call =>
      some (.callback worker handle object (call.read memory))
  | .setMessage _ _ | .setString _ _ => none

/-- The memory after the action. -/
def SceneAction.write (memory : ProducerMemory) : SceneAction → ProducerMemory
  | .setMessage message value =>
      { memory with messages := fun other =>
          if other = message then value else memory.messages other }
  | .setString string value =>
      { memory with strings := fun other => if other = string then value else memory.strings other }
  | _ => memory

namespace Scene

variable {s t v : Scene P}

def initial (memory : ProducerMemory) : Scene P := ⟨.initial, memory⟩

def step (s : Scene P) (action : SceneAction) : Option (Scene P) :=
  match action.read s.memory with
  | some taken => (s.world.step taken).map fun world => ⟨world, s.memory⟩
  | none => some ⟨s.world, action.write s.memory⟩

/-- The module takes the step the scene reads, or does not move. -/
theorem step_cases {action : SceneAction} (stepped : s.step action = some t) :
    (∃ taken, action.read s.memory = some taken ∧ s.world.step taken = some t.world) ∨
      t.world = s.world := by
  unfold step at stepped
  cases reads : action.read s.memory with
  | none =>
      rw [reads] at stepped
      cases stepped
      exact .inr rfl
  | some taken =>
      rw [reads] at stepped
      obtain ⟨world, moved, rfl⟩ := Option.map_eq_some_iff.mp stepped
      exact .inl ⟨taken, rfl, moved⟩

/-- What every step keeps. -/
def Valid (s : Scene P) : Prop :=
  s.world.Delivering ∧ ClientsValid s.world

theorem step_valid {action : SceneAction} (stepped : s.step action = some t) (valid : s.Valid) :
    t.Valid := by
  rcases step_cases stepped with ⟨taken, _, moved⟩ | same
  · exact ⟨World.step_delivering moved valid.1, valid.2.step moved⟩
  · exact ⟨same ▸ valid.1, same ▸ valid.2⟩

/-- The offer is made by this step, out of what the memory holds now. -/
def Produces (v : Scene P) (action : SceneAction) (offer : Offer) : Prop :=
  ∃ taken after, action.read v.memory = some taken ∧ v.step action = some after ∧
    taken.Reports offer.call ∧ offer ∉ Gate.offered (gateLog v.world.history) ∧
      offer ∈ Gate.offered (gateLog after.world.history)

/-- Every offer was made by one step of the run. -/
theorem run_produced {memory : ProducerMemory} {actions : List SceneAction}
    (ran : Transition.run step (initial memory : Scene P) actions = some s) :
    s.Valid ∧ ∀ offer ∈ Gate.offered (gateLog s.world.history),
      ∃ before action after v, actions = before ++ action :: after ∧
        Transition.run step (initial memory : Scene P) before = some v ∧
        v.Produces action offer := by
  induction actions using List.reverseRecOn generalizing s with
  | nil =>
      cases ran
      exact ⟨⟨World.initial_delivering, ClientsValid.initial⟩, fun offer member => by cases member⟩
  | append_singleton actions action ih =>
      obtain ⟨v, earlier, stepped⟩ := Transition.run_concat.mp ran
      obtain ⟨valid, produced⟩ := ih earlier
      refine ⟨step_valid stepped valid, fun offer member => ?_⟩
      by_cases old : offer ∈ Gate.offered (gateLog v.world.history)
      · obtain ⟨before, made, after, u, split, reached, produces⟩ := produced offer old
        exact ⟨before, made, after ++ [action], u, by rw [split]; simp, reached, produces⟩
      · rcases step_cases stepped with ⟨taken, reads, moved⟩ | same
        · have reports := (World.step_reports moved valid.2 member).resolve_left old
          exact ⟨actions, action, [], v, rfl, earlier, taken, s, reads, stepped, reports, old,
            member⟩
        · exact absurd (same ▸ member) old

end Scene

/-- **Event contents reach Pawn unchanged.**  When a step executes a forward, however long the
event was queued and whatever the producers have written to their objects since: the forward is
the one of the event's kind on the client live under its handle; one earlier step of the run
produced the event, out of what it read then; and the arguments are the handle and, as C strings,
the topic and the payload, the reason, or the reason code it read, whole where they contain no
NUL. -/
theorem event_contents {memory : ProducerMemory} {actions : List SceneAction} {s t : Scene P}
    {action : SceneAction} {offer : Offer} {forward : Int} {args : List ForwardArg}
    (ran : Transition.run Scene.step (Scene.initial memory) actions = some s)
    (stepped : s.step action = some t)
    (executed : t.world.history = .executed offer forward args :: s.world.history) :
    (∃ client, s.world.globals.clients.getClient offer.call.handle = some client ∧
      client.forwardId offer.call.type = forward ∧ forward ≠ -1) ∧
    (∃ before produced after, ∃ v : Scene P, actions = before ++ produced :: after ∧
      Transition.run Scene.step (Scene.initial memory) before = some v ∧
      v.Produces produced offer) ∧
    args = offer.call.contents cString ∧
    ((∀ text ∈ offer.call.texts, 0 ∉ text) → args = offer.call.contents id) := by
  obtain ⟨valid, produced⟩ := Scene.run_produced ran
  rcases Scene.step_cases stepped with ⟨taken, _, moved⟩ | same
  · obtain ⟨since, client, live, stored, set, rfl⟩ :=
      World.executed_inv valid.1.2 moved executed
    obtain ⟨type, handle, contents⟩ := offer.call.event_spec
    rw [Offer.event, handle] at live
    rw [Offer.event, type] at stored
    refine ⟨⟨client, live, stored, set⟩, produced offer ?_, contents, fun whole => ?_⟩
    · exact valid.1.1.trace.taken_sublist.subset (Gate.takenSince_subset _ since)
    · rw [← DispatcherCall.contents_eq_id whole]
      exact contents
  · rw [same] at executed
    exact absurd executed (List.cons_ne_self _ _).symm

/-- A message with a NUL in its payload arrives, and the worker overwrites it before the frame. -/
theorem event_contents_overwritten :
    ∃ (s t : Scene .plain) (offer : Offer),
      Transition.run Scene.step (Scene.initial ⟨fun _ => ⟨[], []⟩, fun _ => []⟩)
        [.step (.call .startCallbackDispatcher), .step .tick,
          .step (.call (.native .mqttCreate .plain [0, 0])),
          .step (.call (.native .mqttSetMessageCallback (.registering 7) [1, 0])),
          .setMessage 5 ⟨[116], [65, 0, 66]⟩, .callback 3 1 0 (.message 5),
          .setMessage 5 ⟨[117], [67]⟩, .step (.call .processPendingCallbacks), .step .tick,
          .step .tick] = some s ∧
      s.step (.step .tick) = some t ∧
      t.world.history =
        .executed offer 7 [.cell 1, .string [116], .string [65]] :: s.world.history ∧
      offer.call.contents cString = [.cell 1, .string [116], .string [65]] := by
  let offer : Offer := ⟨3, .worker 3, some 0, .messageCallbackDispatcher 1 [65, 0, 66] [116]⟩
  have state : (Transition.run Scene.step
      (Scene.initial ⟨fun _ => ⟨[], []⟩, fun _ => []⟩ : Scene .plain)
      [.step (.call .startCallbackDispatcher), .step .tick,
        .step (.call (.native .mqttCreate .plain [0, 0])),
        .step (.call (.native .mqttSetMessageCallback (.registering 7) [1, 0])),
        .setMessage 5 ⟨[116], [65, 0, 66]⟩, .callback 3 1 0 (.message 5),
        .setMessage 5 ⟨[117], [67]⟩, .step (.call .processPendingCallbacks), .step .tick,
        .step .tick]).map
          (fun s => (s.world.stack, executeCallback s.world.globals.clients offer.event)) =
            some ([.executeCallback offer.event offer, .drain 0],
              some (7, [.cell 1, .string [116], .string [65]])) := by decide +kernel
  obtain ⟨s, ran, state⟩ := Option.map_eq_some_iff.mp state
  obtain ⟨top, found⟩ := Prod.mk.inj state
  have stepped : s.step (.step .tick) = some ⟨{ s.world with
      stack := [.foreign, .drain 0]
      history := .executed offer 7 [.cell 1, .string [116], .string [65]] :: s.world.history },
      s.memory⟩ := by
    simp only [Scene.step, SceneAction.read, World.step, World.tick, top, found, Option.map_some]
  exact ⟨s, _, offer, ran, stepped, rfl, (event_contents ran stepped rfl).2.2.1.symm⟩

end AmxxMqtt
