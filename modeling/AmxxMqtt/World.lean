import AmxxMqtt.CallbackDispatcher
import AmxxMqtt.History
import AmxxMqtt.Lib.Transition

/-!
# The module as a transition system

The game thread runs the statements of the module one by one.  What it still has to run is a
stack of `GameOp`s, with a `foreign` entry wherever control is outside the module, in Pawn or in
the engine; only there can the module be called again, so nested calls are stacks with several
`foreign` entries.  Between any two statements of the game thread workers run Paho callbacks and
offer events to the queue.

`World.step` is the transition function.  It also keeps the history of the run, and tags every
queued event with the offer it came from.
-/

namespace AmxxMqtt

/-- A statement the game thread has to run. -/
inductive GameOp where
  /-- code outside the module, which may call into it -/
  | foreign
  | startCallbackDispatcher
  | stopCallbackDispatcher
  /-- `g_mqttClientMgr.reset()`, up to the swap -/
  | resetClients
  /-- the destructor of a client already taken out of the table -/
  | destruct (client : AmxxMqttClient)
  | resetOptions
  | registerRehldsFrameHook (engine : Engine)
  | unregisterRehldsFrameHook
  | processPendingCallbacks
  /-- the loop of `ProcessPendingCallbacks` -/
  | drain (remaining : Nat)
  /-- `ExecuteCallback` of the event taken for this offer -/
  | executeCallback (event : CallbackEvent) (offer : Offer)
  deriving DecidableEq

/-- The statements of a frame, which can lead outside the module. -/
def GameOp.calls : GameOp → Bool
  | .foreign | .processPendingCallbacks | .drain _ | .executeCallback _ _ => true
  | _ => false

/-- The calls AMXX, the engine and Pawn make into the module. -/
inductive GameCall where
  | native (native : Native) (host : Host) (args : List Cell)
  | onAmxxAttach (engine : Engine)
  | onAmxxDetach
  | onPluginsLoaded
  | onPluginsUnloading
  | onServerFrame
  | startCallbackDispatcher
  | stopCallbackDispatcher
  | processPendingCallbacks

/-- The statements of each entry point; a native runs in one step. -/
def GameCall.body : GameCall → List GameOp
  | .native _ _ _ => []
  | .onAmxxAttach engine => [.registerRehldsFrameHook engine]
  | .onAmxxDetach =>
      [.stopCallbackDispatcher, .unregisterRehldsFrameHook, .resetClients, .resetOptions]
  | .onPluginsLoaded => [.startCallbackDispatcher]
  | .onPluginsUnloading => [.stopCallbackDispatcher, .resetClients, .resetOptions]
  -- `chain->callNext()` comes first
  | .onServerFrame => [.foreign, .processPendingCallbacks]
  | .startCallbackDispatcher => [.startCallbackDispatcher]
  | .stopCallbackDispatcher => [.stopCallbackDispatcher]
  | .processPendingCallbacks => [.processPendingCallbacks]

/-- One step of one thread. -/
inductive Action where
  /-- a call into the module from the code outside it -/
  | call (call : GameCall)
  /-- that code returns to the module -/
  | ret
  /-- the module's next statement -/
  | tick
  /-- a worker runs a Paho callback of the client made under this handle -/
  | callback (worker : Nat) (handle : Int) (object : ObjectId) (callback : PahoCallback)
  /-- a worker calls a producer entry point -/
  | dispatch (worker : Nat) (call : DispatcherCall)

structure World (P : PahoOptions) where
  globals : Globals P
  /-- the forwards AMXX holds for the module -/
  forwards : AList fun _ : Int => List ForwardParam
  stack : List GameOp
  /-- the offers behind the queued events -/
  provenance : List Offer
  history : History P

namespace World

variable {P : PahoOptions}

def initial : World P := ⟨.initial, ∅, [], [], []⟩

/-- Control is outside the module. -/
def outside (w : World P) : Bool :=
  match w.stack with
  | [] | .foreign :: _ => true
  | _ => false

/-! ## AMXX's forwards -/

def unregister (forwards : AList fun _ : Int => List ForwardParam) (ids : List Int) :
    AList fun _ : Int => List ForwardParam :=
  Table.eraseAll forwards ids

/-- What the effects of a native do to AMXX's forwards. -/
def applyEffect (forwards : AList fun _ : Int => List ForwardParam) :
    Effect P → AList fun _ : Int => List ForwardParam
  | .registered id params => forwards.insert id params
  | .unregistered id => forwards.erase id
  | _ => forwards

/-- What AMXX and the C++ runtime promise: an id returned by a registration is not registered
already, and a constructed object is a new one. -/
def Admits (w : World P) : Effect P → Prop
  | .registered id _ => id ∉ w.forwards
  | .constructed object => object ∉ Names.identities (handleLog w.history)
  | _ => True

instance (w : World P) (effect : Effect P) : Decidable (w.Admits effect) := by
  unfold Admits
  split <;> infer_instance

/-! ## Producers -/

/-- Note an offer the queue has just accepted or refused. -/
def record (producer : Producer) (source : Option ObjectId) (call : DispatcherCall)
    (w : World P) : World P :=
  let offer : Offer := ⟨w.history.length, producer, source, call⟩
  let accepted := w.globals.queue.acceptingCallbacks
  { w with
    provenance := if accepted then w.provenance ++ [offer] else w.provenance
    history := .gate (if accepted then .accepted offer else .refused offer) :: w.history }

/-- A producer entry point, called by a worker. -/
def offer (producer : Producer) (source : Option ObjectId) (call : DispatcherCall)
    (w : World P) : World P :=
  record producer source call
    { w with globals := { w.globals with queue := w.globals.queue.enqueueCallback call.event } }

def offerAll (producer : Producer) (source : Option ObjectId) :
    List DispatcherCall → World P → World P
  | [], w => w
  | call :: calls, w => offerAll producer source calls (w.offer producer source call)

/-- Note the offers among a native's effects. -/
def recordAll : List (ObjectId × DispatcherCall) → World P → World P
  | [], w => w
  | (object, call) :: rest, w => recordAll rest (w.record .gameThread (some object) call)

/-- The table after a Paho callback of the client under this handle. -/
def received (clients : MqttClientMgr) (handle : Int) (callback : PahoCallback) : MqttClientMgr :=
  match clients.getClient handle with
  | some client =>
      clients.setClient handle { client with base := (client.base.receive callback).1 }
  | none => clients

/-- The handlers the callback invokes.  A client no longer in the table, on its way to
destruction, can still invoke the handlers it was built with. -/
def invoked (clients : MqttClientMgr) (handle : Int) (object : ObjectId)
    (callback : PahoCallback) : List BoundHandler :=
  let client := (clients.getClient handle).getD (MqttClientMgr.bound object handle)
  (client.base.receive callback).2

/-- A Paho callback of the client made under this handle. -/
def receive (producer : Producer) (handle : Int) (object : ObjectId) (callback : PahoCallback)
    (w : World P) : World P :=
  offerAll producer (some object)
    ((invoked w.globals.clients handle object callback).map fun handler =>
      handler.invoke callback.notification)
    { w with globals := { w.globals with clients := received w.globals.clients handle callback } }

/-! ## The game thread -/

/-- The world after a native returned; the client it took out of the table is destructed
next. -/
def returned (native : Native) (host : Host) (params : List Cell) (r : NativeReturn P)
    (w : World P) : World P :=
  recordAll (r.effects.filterMap Effect.dispatch)
    { w with
      globals := r.globals
      forwards := r.effects.foldl applyEffect w.forwards
      stack := r.removed.toList.map .destruct ++ w.stack
      history := .native (r.asCall native host params) :: w.history }

def enter (w : World P) : GameCall → Option (World P)
  | .native native host args =>
      match native.invoke host (frame args) w.globals with
      | .ok r =>
          if ∀ effect ∈ r.effects, w.Admits effect then
            some (w.returned native host (frame args) r)
          else none
      | .error _ => none
  | .onServerFrame =>
      if w.globals.frameHook.hooks = [] then none
      else some { w with stack := GameCall.onServerFrame.body ++ w.stack }
  | call => some { w with stack := call.body ++ w.stack }

/-- Run the statement on top of the stack. -/
def tick (w : World P) : Option (World P) :=
  let g := w.globals
  match w.stack with
  | [] | .foreign :: _ => none
  | .startCallbackDispatcher :: rest =>
      some { w with
        globals := { g with queue := g.queue.startCallbackDispatcher }
        stack := rest, history := .gate .opened :: w.history }
  | .stopCallbackDispatcher :: rest =>
      some { w with
        globals := { g with queue := g.queue.stopCallbackDispatcher }
        stack := rest, provenance := [], history := .gate .closed :: w.history }
  | .resetClients :: rest =>
      let (removed, clients) := g.clients.reset
      some { w with
        globals := { g with clients }
        stack := removed.map .destruct ++ rest, history := .clientsReset :: w.history }
  | .destruct client :: rest =>
      some { w with
        forwards := unregister w.forwards client.destructor
        stack := rest, history := .destructed client :: w.history }
  | .resetOptions :: rest =>
      some { w with
        globals := { g with options := g.options.reset }
        stack := rest, history := .optionsReset :: w.history }
  | .registerRehldsFrameHook engine :: rest =>
      some { w with
        globals := { g with frameHook := (g.frameHook.registerRehldsFrameHook engine).1 }
        stack := rest }
  | .unregisterRehldsFrameHook :: rest =>
      some { w with
        globals := { g with frameHook := g.frameHook.unregisterRehldsFrameHook }, stack := rest }
  | .processPendingCallbacks :: rest =>
      some { w with stack := .drain g.queue.batchSize :: rest }
  | .drain 0 :: rest => some { w with stack := rest }
  | .drain (remaining + 1) :: rest =>
      match g.queue.takeFront, w.provenance with
      | none, _ => some { w with stack := rest }
      | some (event, queue), offer :: provenance =>
          some { w with
            globals := { g with queue }
            stack := .executeCallback event offer :: .drain remaining :: rest
            provenance, history := .gate (.taken offer) :: w.history }
      | some _, [] => none
  | .executeCallback event offer :: rest =>
      match executeCallback g.clients event with
      | some (id, args) =>
          some { w with stack := .foreign :: rest, history := .executed offer id args :: w.history }
      | none => some { w with stack := rest, history := .discarded offer :: w.history }

def step (w : World P) : Action → Option (World P)
  | .call call => if w.outside then w.enter call else none
  | .ret =>
      match w.stack with
      | .foreign :: rest => some { w with stack := rest }
      | _ => none
  | .tick => w.tick
  | .callback worker handle object callback =>
      if .issued handle object ∈ handleLog w.history then
        some (w.receive (.worker worker) handle object callback)
      else none
  | .dispatch worker call => some (w.offer (.worker worker) none call)

/-! ## Inversion -/

/-- Every step the world can take. -/
inductive Steps : World P → Action → World P → Prop
  | native {w : World P} {native : Native} {host : Host} {args : List Cell} {r : NativeReturn P}
      (outside : w.outside = true) (invoked : native.invoke host (frame args) w.globals = .ok r)
      (admitted : ∀ effect ∈ r.effects, w.Admits effect) :
      Steps w (.call (.native native host args)) (w.returned native host (frame args) r)
  | entered {w : World P} {call : GameCall} (outside : w.outside = true)
      (plain : ∀ native host args, call ≠ .native native host args) :
      Steps w (.call call) { w with stack := call.body ++ w.stack }
  | ret {w : World P} {rest : List GameOp} (top : w.stack = .foreign :: rest) :
      Steps w .ret { w with stack := rest }
  | callback {w : World P} {worker : Nat} {handle : Int} {object : ObjectId}
      {callback : PahoCallback} (made : .issued handle object ∈ handleLog w.history) :
      Steps w (.callback worker handle object callback)
        (w.receive (.worker worker) handle object callback)
  | dispatch {w : World P} {worker : Nat} {call : DispatcherCall} :
      Steps w (.dispatch worker call) (w.offer (.worker worker) none call)
  | start {w : World P} {rest : List GameOp} (top : w.stack = .startCallbackDispatcher :: rest) :
      Steps w .tick { w with
        globals := { w.globals with queue := w.globals.queue.startCallbackDispatcher }
        stack := rest, history := .gate .opened :: w.history }
  | stop {w : World P} {rest : List GameOp} (top : w.stack = .stopCallbackDispatcher :: rest) :
      Steps w .tick { w with
        globals := { w.globals with queue := w.globals.queue.stopCallbackDispatcher }
        stack := rest, provenance := [], history := .gate .closed :: w.history }
  | resetClients {w : World P} {rest : List GameOp} (top : w.stack = .resetClients :: rest) :
      Steps w .tick { w with
        globals := { w.globals with clients := w.globals.clients.reset.2 }
        stack := w.globals.clients.reset.1.map .destruct ++ rest
        history := .clientsReset :: w.history }
  | destruct {w : World P} {client : AmxxMqttClient} {rest : List GameOp}
      (top : w.stack = .destruct client :: rest) :
      Steps w .tick { w with
        forwards := unregister w.forwards client.destructor
        stack := rest, history := .destructed client :: w.history }
  | resetOptions {w : World P} {rest : List GameOp} (top : w.stack = .resetOptions :: rest) :
      Steps w .tick { w with
        globals := { w.globals with options := w.globals.options.reset }
        stack := rest, history := .optionsReset :: w.history }
  | hook {w : World P} {engine : Engine} {rest : List GameOp}
      (top : w.stack = .registerRehldsFrameHook engine :: rest) :
      Steps w .tick { w with
        globals := { w.globals with
          frameHook := (w.globals.frameHook.registerRehldsFrameHook engine).1 }
        stack := rest }
  | unhook {w : World P} {rest : List GameOp} (top : w.stack = .unregisterRehldsFrameHook :: rest) :
      Steps w .tick { w with
        globals := { w.globals with frameHook := w.globals.frameHook.unregisterRehldsFrameHook }
        stack := rest }
  | process {w : World P} {rest : List GameOp} (top : w.stack = .processPendingCallbacks :: rest) :
      Steps w .tick { w with stack := .drain w.globals.queue.batchSize :: rest }
  | drained {w : World P} {remaining : Nat} {rest : List GameOp}
      (top : w.stack = .drain remaining :: rest)
      (ended : remaining = 0 ∨ w.globals.queue.takeFront = none) :
      Steps w .tick { w with stack := rest }
  | take {w : World P} {remaining : Nat} {event : CallbackEvent} {queue : CallbackQueue}
      {offer : Offer} {provenance : List Offer} {rest : List GameOp}
      (top : w.stack = .drain (remaining + 1) :: rest)
      (popped : w.globals.queue.takeFront = some (event, queue))
      (front : w.provenance = offer :: provenance) :
      Steps w .tick { w with
        globals := { w.globals with queue }
        stack := .executeCallback event offer :: .drain remaining :: rest
        provenance, history := .gate (.taken offer) :: w.history }
  | execute {w : World P} {event : CallbackEvent} {offer : Offer} {id : Int}
      {args : List ForwardArg} {rest : List GameOp}
      (top : w.stack = .executeCallback event offer :: rest)
      (found : AmxxMqtt.executeCallback w.globals.clients event = some (id, args)) :
      Steps w .tick { w with
        stack := .foreign :: rest, history := .executed offer id args :: w.history }
  | discard {w : World P} {event : CallbackEvent} {offer : Offer} {rest : List GameOp}
      (top : w.stack = .executeCallback event offer :: rest)
      (found : AmxxMqtt.executeCallback w.globals.clients event = none) :
      Steps w .tick { w with stack := rest, history := .discarded offer :: w.history }

theorem steps_of_enter {w t : World P} {call : GameCall} (outside : w.outside = true)
    (entered : w.enter call = some t) : Steps w (.call call) t := by
  cases call with
  | native native host args =>
      simp only [enter] at entered
      split at entered
      · split at entered
        · cases entered
          exact .native outside ‹_› ‹_›
        · cases entered
      · cases entered
  | onServerFrame =>
      simp only [enter] at entered
      split at entered
      · cases entered
      · cases entered
        exact .entered outside (by simp)
  | _ =>
      cases entered
      exact .entered outside (by simp)

theorem steps_of_tick {w t : World P} (ticked : w.tick = some t) : Steps w .tick t := by
  unfold tick at ticked
  split at ticked
  · cases ticked
  · cases ticked
  · cases ticked
    exact .start ‹_›
  · cases ticked
    exact .stop ‹_›
  · cases ticked
    exact .resetClients ‹_›
  · cases ticked
    exact .destruct ‹_›
  · cases ticked
    exact .resetOptions ‹_›
  · cases ticked
    exact .hook ‹_›
  · cases ticked
    exact .unhook ‹_›
  · cases ticked
    exact .process ‹_›
  · cases ticked
    exact .drained ‹_› (.inl rfl)
  · rename_i top
    simp only at ticked
    split at ticked
    · cases ticked
      exact .drained top (.inr ‹_›)
    · cases ticked
      exact .take top ‹_› ‹_›
    · cases ticked
  · rename_i top
    simp only at ticked
    split at ticked
    · cases ticked
      exact .execute top ‹_›
    · cases ticked
      exact .discard top ‹_›

/-- **What one step can do.** -/
theorem steps {w t : World P} {action : Action} (taken : w.step action = some t) :
    Steps w action t := by
  cases action with
  | call call =>
      simp only [step] at taken
      split at taken
      · exact steps_of_enter ‹_› taken
      · cases taken
  | ret =>
      simp only [step] at taken
      split at taken
      · cases taken
        exact .ret ‹_›
      · cases taken
  | tick => exact steps_of_tick taken
  | callback worker handle object callback =>
      simp only [step] at taken
      split at taken
      · cases taken
        exact .callback ‹_›
      · cases taken
  | dispatch worker call =>
      cases taken
      exact .dispatch

/-! ## What offers leave alone -/

theorem record_frame (producer : Producer) (source : Option ObjectId) (call : DispatcherCall)
    (w : World P) :
    ∃ provenance gate, w.record producer source call =
      { w with provenance, history := .gate gate :: w.history } :=
  ⟨_, _, rfl⟩

theorem offered_record (producer : Producer) (source : Option ObjectId) (call : DispatcherCall)
    (w : World P) : Gate.offered (gateLog (w.record producer source call).history) =
      Gate.offered (gateLog w.history) ++ [⟨w.history.length, producer, source, call⟩] := by
  simp only [World.record, gateLog_cons, WorldEvent.gateEvents, List.singleton_append]
  split <;> rfl

theorem recordAll_frame (dispatches : List (ObjectId × DispatcherCall)) (w : World P) :
    ∃ provenance, ∃ gates : List (Gate.Event Offer), w.recordAll dispatches =
      { w with provenance, history := gates.map .gate ++ w.history } := by
  induction dispatches generalizing w with
  | nil => exact ⟨w.provenance, [], rfl⟩
  | cons dispatch dispatches ih =>
      obtain ⟨first, gate, recorded⟩ := w.record_frame .gameThread (some dispatch.1) dispatch.2
      obtain ⟨provenance, gates, same⟩ := ih (w.record .gameThread (some dispatch.1) dispatch.2)
      refine ⟨provenance, gates ++ [gate], same.trans ?_⟩
      rw [recorded, List.map_append, List.append_assoc]
      rfl

theorem offerAll_frame (producer : Producer) (source : Option ObjectId)
    (calls : List DispatcherCall) (w : World P) :
    ∃ queue provenance, ∃ gates : List (Gate.Event Offer), w.offerAll producer source calls =
      { w with
        globals := { w.globals with queue }
        provenance, history := gates.map .gate ++ w.history } := by
  induction calls generalizing w with
  | nil => exact ⟨w.globals.queue, w.provenance, [], rfl⟩
  | cons call calls ih =>
      obtain ⟨first, gate, recorded⟩ := record_frame producer source call { w with
        globals := { w.globals with queue := w.globals.queue.enqueueCallback call.event } }
      obtain ⟨queue, provenance, gates, same⟩ := ih (w.offer producer source call)
      refine ⟨queue, provenance, gates ++ [gate], same.trans ?_⟩
      rw [offer, recorded, List.map_append, List.append_assoc]
      rfl

/-- A Paho callback touches the connection flag of its client and the queue. -/
theorem receive_frame (producer : Producer) (handle : Int) (object : ObjectId)
    (callback : PahoCallback) (w : World P) :
    ∃ queue provenance, ∃ gates : List (Gate.Event Offer),
      w.receive producer handle object callback = { w with
        globals := { w.globals with
          queue, clients := received w.globals.clients handle callback }
        provenance, history := gates.map .gate ++ w.history } :=
  offerAll_frame _ _ _ { w with globals := { w.globals with
    clients := received w.globals.clients handle callback } }

/-- A native leaves what it returned, one record of the call, and the offers it made. -/
theorem returned_frame (native : Native) (host : Host) (params : List Cell) (r : NativeReturn P)
    (w : World P) :
    ∃ provenance, ∃ gates : List (Gate.Event Offer), w.returned native host params r =
      { globals := r.globals
        forwards := r.effects.foldl applyEffect w.forwards
        stack := r.removed.toList.map .destruct ++ w.stack
        provenance
        history := gates.map .gate ++ .native (r.asCall native host params) :: w.history } :=
  recordAll_frame _ _

section Frames

variable {w : World P} {producer : Producer} {handle : Int} {object : ObjectId}
  {callback : PahoCallback} {native : Native} {host : Host} {params : List Cell}
  {r : NativeReturn P}

@[simp] theorem receive_clients : (w.receive producer handle object callback).globals.clients =
    received w.globals.clients handle callback := by
  obtain ⟨queue, provenance, gates, same⟩ := w.receive_frame producer handle object callback
  rw [same]

@[simp] theorem receive_options :
    (w.receive producer handle object callback).globals.options = w.globals.options := by
  obtain ⟨queue, provenance, gates, same⟩ := w.receive_frame producer handle object callback
  rw [same]

@[simp] theorem receive_frameHook :
    (w.receive producer handle object callback).globals.frameHook = w.globals.frameHook := by
  obtain ⟨queue, provenance, gates, same⟩ := w.receive_frame producer handle object callback
  rw [same]

@[simp] theorem receive_forwards :
    (w.receive producer handle object callback).forwards = w.forwards := by
  obtain ⟨queue, provenance, gates, same⟩ := w.receive_frame producer handle object callback
  rw [same]

@[simp] theorem receive_stack :
    (w.receive producer handle object callback).stack = w.stack := by
  obtain ⟨queue, provenance, gates, same⟩ := w.receive_frame producer handle object callback
  rw [same]

theorem receive_history : ∃ gates : List (Gate.Event Offer),
    (w.receive producer handle object callback).history = gates.map .gate ++ w.history := by
  obtain ⟨queue, provenance, gates, same⟩ := w.receive_frame producer handle object callback
  exact ⟨gates, by rw [same]⟩

@[simp] theorem returned_globals :
    (w.returned native host params r).globals = r.globals := by
  obtain ⟨provenance, gates, same⟩ := w.returned_frame native host params r
  rw [same]

@[simp] theorem returned_forwards : (w.returned native host params r).forwards =
    r.effects.foldl applyEffect w.forwards := by
  obtain ⟨provenance, gates, same⟩ := w.returned_frame native host params r
  rw [same]

@[simp] theorem returned_stack : (w.returned native host params r).stack =
    r.removed.toList.map .destruct ++ w.stack := by
  obtain ⟨provenance, gates, same⟩ := w.returned_frame native host params r
  rw [same]

theorem returned_history : ∃ gates : List (Gate.Event Offer),
    (w.returned native host params r).history =
      gates.map .gate ++ .native (r.asCall native host params) :: w.history := by
  obtain ⟨provenance, gates, same⟩ := w.returned_frame native host params r
  exact ⟨gates, by rw [same]⟩

theorem returned_handleLog : handleLog (w.returned native host params r).history =
    (r.asCall native host params).handleEvents ++ handleLog w.history := by
  rcases w.returned_history with ⟨gates, same⟩
  rw [same, handleLog_gates, handleLog_cons]
  rfl

theorem returned_forwardLog : forwardLog (w.returned native host params r).history =
    (r.effects.filterMap Effect.forwardEvent).reverse ++ forwardLog w.history := by
  rcases w.returned_history with ⟨gates, same⟩
  rw [same, forwardLog_gates, forwardLog_cons]
  rfl

theorem returned_lastStored (other : Int) (type : CallbackType) :
    lastStored (w.returned native host params r).history other type =
      ((r.asCall native host params).stores other type).or (lastStored w.history other type) := by
  rcases w.returned_history with ⟨gates, same⟩
  rw [same, lastStored_gates]
  rfl

end Frames

/-! ## The history only grows -/

theorem step_history {w t : World P} {action : Action} (taken : w.step action = some t) :
    w.history <:+ t.history := by
  cases steps taken with
  | native outside invoked admitted =>
      rcases w.returned_history with ⟨gates, same⟩
      rw [same]
      exact (List.suffix_cons _ _).trans (List.suffix_append _ _)
  | callback made =>
      rcases w.receive_history with ⟨gates, same⟩
      rw [same]
      exact List.suffix_append _ _
  | entered | ret | hook | unhook | process | drained => exact List.suffix_refl _
  | dispatch | start | stop | resetClients | destruct | resetOptions | take | execute | discard =>
      exact List.suffix_cons _ _

theorem run_history {w t : World P} {actions : List Action}
    (ran : Transition.run step w actions = some t) : w.history <:+ t.history :=
  Transition.run_suffix step_history ran

/-! ## The shape of the stack -/

/-- Below a statement that can lead outside there are only such statements: whenever control is
outside the module, no destructor and no reset is pending. -/
def StackValid (stack : List GameOp) : Prop :=
  stack.Pairwise fun above below => above.calls = true → below.calls = true

/-- Statements of one kind on top of statements that can lead outside. -/
theorem StackValid.push {stack pushed : List GameOp} (calls : ∀ op ∈ stack, op.calls = true)
    (uniform : StackValid pushed) : StackValid (pushed ++ stack) :=
  List.pairwise_append.mpr ⟨uniform,
    List.pairwise_of_forall_mem_list fun _ _ _ member _ => calls _ member,
    fun _ _ below member _ => calls below member⟩

theorem StackValid.of_body (call : GameCall) : StackValid call.body := by
  cases call <;> simp [StackValid, GameCall.body, GameOp.calls]

theorem StackValid.calls_of_outside {w : World P} (valid : StackValid w.stack)
    (outside : w.outside = true) : ∀ op ∈ w.stack, op.calls = true := by
  unfold World.outside at outside
  split at outside
  · rename_i empty
    rw [empty]
    simp
  · rename_i rest top
    rw [top] at valid ⊢
    intro op member
    rcases List.mem_cons.mp member with rfl | below
    · rfl
    · exact (List.pairwise_cons.mp valid).1 op below rfl
  · cases outside

theorem StackValid.destructs (clients : List AmxxMqttClient) :
    StackValid (clients.map .destruct) :=
  List.pairwise_map.mpr (List.pairwise_of_forall fun _ _ calls => by cases calls)

theorem step_stackValid {w t : World P} {action : Action} (taken : w.step action = some t)
    (valid : StackValid w.stack) : StackValid t.stack := by
  cases steps taken with
  | native outside invoked admitted =>
      rw [returned_stack]
      exact StackValid.push (valid.calls_of_outside outside) (StackValid.destructs _)
  | entered outside plain =>
      exact StackValid.push (valid.calls_of_outside outside) (StackValid.of_body _)
  | callback made =>
      rw [receive_stack]
      exact valid
  | dispatch => exact valid
  | @resetClients rest top =>
      rw [top] at valid
      obtain ⟨above, below⟩ := List.pairwise_cons.mp valid
      refine List.pairwise_append.mpr ⟨StackValid.destructs _, below, fun op member _ _ calls => ?_⟩
      obtain ⟨client, _, rfl⟩ := List.mem_map.mp member
      cases calls
  | @process rest top =>
      rw [top] at valid
      obtain ⟨above, below⟩ := List.pairwise_cons.mp valid
      exact List.pairwise_cons.mpr ⟨above, below⟩
  | @take remaining event queue offer provenance rest top popped front =>
      rw [top] at valid
      obtain ⟨above, below⟩ := List.pairwise_cons.mp valid
      have same : StackValid (.drain remaining :: rest) := List.pairwise_cons.mpr ⟨above, below⟩
      refine List.pairwise_cons.mpr ⟨fun op member calls => ?_, same⟩
      rcases List.mem_cons.mp member with rfl | deeper
      · rfl
      · exact above op deeper rfl
  | @execute event offer id args rest top found =>
      rw [top] at valid
      obtain ⟨above, below⟩ := List.pairwise_cons.mp valid
      exact List.pairwise_cons.mpr ⟨above, below⟩
  | ret top | start top | stop top | destruct top | resetOptions top | hook top | unhook top
  | drained top ended | discard top found =>
      rw [top] at valid
      exact (List.pairwise_cons.mp valid).2

end World

end AmxxMqtt
