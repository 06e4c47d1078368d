import AmxxMqtt.World

/-!
# The module on its threads

`World` takes a native, a Paho callback and a producer's call in one step each.  Here the game
thread and any number of workers run every statement in a step of its own, with a step for each
lock and unlock of a mutex, in any interleaving.

What a thread still has to run is a stack of `ThreadOp`s.  `foreign` stands wherever control is
in Pawn, AMXX or the engine, and `paho` wherever it is in an operation of a client's Paho object;
from there the module can be entered again.

`ThreadOp.exec` is the meaning of a statement that is not a lock or an unlock, and `Threads.step`
the transition function.  The values are those of the coarser model, and a native decides what to
do there: only what it does to the mutexes, to Paho and to the clients is spread over steps.
-/

namespace AmxxMqtt

/-- The mutexes of the module. -/
inductive Mutex where
  | callbackMutex
  /-- `m_handlerMutex` of a client -/
  | handlerMutex (object : ObjectId)
  /-- `m_mutex` of the options manager -/
  | optionsMutex
  deriving DecidableEq

/-- The game thread and the workers. -/
inductive Thread (n : Nat) where
  | game
  | worker (i : Fin n)
  deriving DecidableEq

/-- The operations of an `mqtt::async_client`. -/
inductive PahoOp where
  | connect
  | disconnect
  | subscribe
  | unsubscribe
  | publish
  | destroy
  deriving DecidableEq

def PahoRequest.operation {P : PahoOptions} : PahoRequest P → PahoOp
  | .connect _ => .connect
  | .disconnect => .disconnect
  | .subscribe _ _ => .subscribe
  | .unsubscribe _ => .unsubscribe
  | .publish _ _ _ _ => .publish

/-- A statement a thread has to run. -/
inductive ThreadOp where
  /-- code outside the module, which may call into it -/
  | foreign
  /-- an operation of this client's Paho object -/
  | paho (object : ObjectId) (operation : PahoOp)
  | lock (mutex : Mutex)
  | unlock (mutex : Mutex)
  | enqueueCallback (event : CallbackEvent)
  /-- `if (acceptingCallbacks) pendingCallbacks.push_back(..)` -/
  | pushBack (event : CallbackEvent)
  | startCallbackDispatcher
  | setAccepting
  | stopCallbackDispatcher
  | clearPending
  | processPendingCallbacks
  /-- `remaining = std::min(pendingCallbacks.size(), maxCallbacksPerFrame)` -/
  | readSize
  /-- the loop of `ProcessPendingCallbacks` -/
  | drain (remaining : Nat)
  /-- the critical section of the loop -/
  | takeFront (remaining : Nat)
  | executeCallback (event : CallbackEvent)
  /-- `m_bIsConnected = value` -/
  | storeConnected (object : ObjectId) (value : Bool)
  /-- `if (const auto handler = copyHandler(m_..Handler)) handler(..)` -/
  | callHandler (object : ObjectId) (type : CallbackType) (notification : Notification)
  /-- the critical section of `copyHandler`, and the test of the copy -/
  | copyHandler (object : ObjectId) (type : CallbackType) (notification : Notification)
  /-- the user handler is entered -/
  | invoke (handler : BoundHandler) (notification : Notification)
  /-- the user handler returns -/
  | handlerReturn
  /-- the Paho callback returns -/
  | callbackReturn (object : ObjectId)
  | setHandler (object : ObjectId) (type : CallbackType) (handler : BoundHandler)
  | storeHandler (object : ObjectId) (type : CallbackType) (handler : BoundHandler)
  /-- `m_clients.emplace(handle, std::move(client)); ++m_nextHandle;` -/
  | emplace (handle : Int) (object : ObjectId)
  /-- `~AmxxMqttClient` and `~MqttClient` -/
  | destroyClient (object : ObjectId)
  | setStopping (object : ObjectId)
  | resetClients
  /-- `ConnectOptionMgr::make` -/
  | makeOptions (failure : Option (OptionsStage × Thrown))
  /-- the critical section of `makeIndex` -/
  | makeIndex (failure : Option (OptionsStage × Thrown))
  /-- the rest of `make`, with the number reserved -/
  | buildOptions (index : Int) (failure : Option (OptionsStage × Thrown))
  | destroyOptions (index : Int)
  | resetOptions
  | registerRehldsFrameHook (engine : Engine)
  | unregisterRehldsFrameHook
  deriving DecidableEq

/-- `std::lock_guard lock(mutex); statement;` -/
def ThreadOp.guarded (mutex : Mutex) (statement : ThreadOp) : List ThreadOp :=
  [.lock mutex, statement, .unlock mutex]

/-! ## What the threads share -/

structure Shared (P : PahoOptions) where
  globals : Globals P
  /-- the clients that are under construction or on their way to destruction -/
  unlisted : AList fun _ : ObjectId => AmxxMqttClient
  /-- every object constructed so far -/
  constructed : List ObjectId

namespace Shared

variable {P : PahoOptions}

def initial : Shared P := ⟨.initial, ∅, []⟩

/-- The handle the manager has the client under. -/
def handleOf (object : ObjectId) (s : Shared P) : Option Int :=
  (s.globals.clients.clients.entries.find? fun entry => entry.2.object = object).map (·.1)

def client (object : ObjectId) (s : Shared P) : Option AmxxMqttClient :=
  match s.handleOf object with
  | some handle => s.globals.clients.getClient handle
  | none => s.unlisted.lookup object

/-- Write through the client's `this`. -/
def setClient (object : ObjectId) (client : AmxxMqttClient) (s : Shared P) : Shared P :=
  match s.handleOf object with
  | some handle =>
      { s with globals := { s.globals with clients := s.globals.clients.setClient handle client } }
  | none => { s with unlisted := s.unlisted.insert object client }

/-- A statement of the client's on its `MqttClient` part. -/
def modifyBase (object : ObjectId) (f : MqttClient BoundHandler → MqttClient BoundHandler)
    (s : Shared P) : Shared P :=
  match s.client object with
  | some client => s.setClient object { client with base := f client.base }
  | none => s

def setQueue (queue : CallbackQueue) (s : Shared P) : Shared P :=
  { s with globals := { s.globals with queue } }

def setOptions (options : ConnectOptionMgr P) (s : Shared P) : Shared P :=
  { s with globals := { s.globals with options } }

def setFrameHook (frameHook : FrameHook) (s : Shared P) : Shared P :=
  { s with globals := { s.globals with frameHook } }

/-- Clients taken out of the manager. -/
def unlist (removed : List AmxxMqttClient) (s : Shared P) : Shared P :=
  { s with
    unlisted := removed.foldl (fun unlisted client => unlisted.insert client.object client)
      s.unlisted }

end Shared

/-! ## The statements -/

section Statements

variable {P : PahoOptions}

/-- The state after a statement, and the statements it leads to.  Outside the module, and at the
mutexes, there is nothing to execute. -/
def ThreadOp.exec (s : Shared P) : ThreadOp → Option (Shared P × List ThreadOp)
  | .foreign | .paho _ _ | .lock _ | .unlock _ => none
  | .enqueueCallback event => some (s, guarded .callbackMutex (.pushBack event))
  | .pushBack event => some (s.setQueue (s.globals.queue.enqueueCallback event), [])
  | .startCallbackDispatcher => some (s, guarded .callbackMutex .setAccepting)
  | .setAccepting => some (s.setQueue s.globals.queue.startCallbackDispatcher, [])
  | .stopCallbackDispatcher => some (s, guarded .callbackMutex .clearPending)
  | .clearPending => some (s.setQueue s.globals.queue.stopCallbackDispatcher, [])
  | .processPendingCallbacks => some (s, [.lock .callbackMutex, .readSize])
  | .readSize => some (s, [.unlock .callbackMutex, .drain s.globals.queue.batchSize])
  | .drain 0 => some (s, [])
  | .drain (remaining + 1) => some (s, [.lock .callbackMutex, .takeFront remaining])
  | .takeFront remaining =>
      match s.globals.queue.takeFront with
      -- `return`: the guard goes out of scope, and so does the loop
      | none => some (s, [.unlock .callbackMutex])
      | some (event, queue) =>
          some (s.setQueue queue,
            [.unlock .callbackMutex, .executeCallback event, .drain remaining])
  | .executeCallback event =>
      match AmxxMqtt.executeCallback s.globals.clients event with
      | some _ => some (s, [.foreign])
      | none => some (s, [])
  | .storeConnected object value =>
      some (s.modifyBase object fun base => { base with isConnected := value }, [])
  | .callHandler object type notification =>
      some (s, [.lock (.handlerMutex object), .copyHandler object type notification])
  | .copyHandler object type notification =>
      match (s.client object).bind fun client => client.base.copyHandler type with
      | some handler =>
          some (s, [.unlock (.handlerMutex object), .invoke handler notification])
      | none => some (s, [.unlock (.handlerMutex object)])
  | .invoke handler notification =>
      some (s, [.enqueueCallback (handler.invoke notification).event, .handlerReturn])
  | .handlerReturn | .callbackReturn _ => some (s, [])
  | .setHandler object type handler =>
      some (s, guarded (.handlerMutex object) (.storeHandler object type handler))
  | .storeHandler object type handler =>
      some (s.modifyBase object (MqttClient.setHandler type (some handler)), [])
  | .emplace handle object =>
      match s.unlisted.lookup object with
      | none => some (s, [])
      | some client =>
          let clients : MqttClientMgr :=
            { clients := MqttClientMgr.emplace handle client s.globals.clients.clients
              nextHandle := (s.globals.clients.nextHandle + 1) % 2 ^ 64 }
          some ({ s with
            globals := { s.globals with clients }, unlisted := s.unlisted.erase object }, [])
  | .destroyClient object =>
      some (s, guarded (.handlerMutex object) (.setStopping object) ++ [.paho object .destroy])
  | .setStopping object =>
      some (s.modifyBase object fun base => { base with stopping := true }, [])
  | .resetClients =>
      let (removed, clients) := s.globals.clients.reset
      some ({ s with globals := { s.globals with clients } }.unlist removed,
        removed.map fun client => .destroyClient client.object)
  | .makeOptions failure => some (s, [.lock .optionsMutex, .makeIndex failure])
  | .makeIndex failure =>
      match s.globals.options.makeIndex with
      | (.ok index, options) =>
          some (s.setOptions options, [.unlock .optionsMutex, .buildOptions index failure])
      -- the exception leaves the guard's scope before the native logs it
      | (.error _, options) => some (s.setOptions options, [.unlock .optionsMutex, .foreign])
  | .buildOptions index failure =>
      if index ≠ 0 then
        match failure with
        | some _ => some (s, [.foreign])
        | none =>
            some (s.setOptions { s.globals.options with
              options := s.globals.options.options.insert index
                (some ⟨P.version5, P.noProperties⟩) }, [])
      else some (s, [])
  | .destroyOptions index => some (s.setOptions (s.globals.options.destroy index), [])
  | .resetOptions => some (s.setOptions s.globals.options.reset, [])
  | .registerRehldsFrameHook engine =>
      some (s.setFrameHook (s.globals.frameHook.registerRehldsFrameHook engine).1, [])
  | .unregisterRehldsFrameHook =>
      some (s.setFrameHook s.globals.frameHook.unregisterRehldsFrameHook, [])

/-- The statements of a Paho callback: `PahoCallback.body`, in which the statement that finds a
handler invokes it. -/
def PahoCallback.statements (object : ObjectId) (callback : PahoCallback) : List ThreadOp :=
  callback.stored.toList.map (.storeConnected object) ++
    [.callHandler object callback.type callback.notification, .callbackReturn object]

/-- The statements an entry point of `World` starts with. -/
def GameOp.statement : GameOp → ThreadOp
  | .foreign => .foreign
  | .startCallbackDispatcher => .startCallbackDispatcher
  | .stopCallbackDispatcher => .stopCallbackDispatcher
  | .resetClients => .resetClients
  | .destruct client => .destroyClient client.object
  | .resetOptions => .resetOptions
  | .registerRehldsFrameHook engine => .registerRehldsFrameHook engine
  | .unregisterRehldsFrameHook => .unregisterRehldsFrameHook
  | .processPendingCallbacks => .processPendingCallbacks
  | .drain remaining => .drain remaining
  | .executeCallback event _ => .executeCallback event

/-! ## Natives -/

/-- What a native does after its request, whether or not Paho threw. -/
def Native.afterRequest (host : Host) (params : List Cell) (object : ObjectId) :
    Native → List ThreadOp
  | .mqttConnect => [.destroyOptions (params.getD 2 0)]
  | .mqttDisconnect =>
      match host.request with
      -- the `catch` of `MqttClient::disconnect`
      | some (.mqtt _) =>
          [.callHandler object .disconnected { reasonCode := normalDisconnection }]
      | _ => []
  | _ => []

/-- The statements behind an effect of a native that returns `value`. -/
def Effect.statements (native : Native) (host : Host) (params : List Cell) (value : Cell) :
    Effect P → List ThreadOp
  | .constructed object =>
      [.setHandler object .connected ⟨.connected, value⟩,
        .setHandler object .message ⟨.message, value⟩,
        .setHandler object .connectionLost ⟨.connectionLost, value⟩,
        .setHandler object .disconnected ⟨.disconnected, value⟩,
        .emplace value object]
  | .request object asked =>
      .paho object asked.operation :: native.afterRequest host params object
  -- AMXX can run a Pawn error filter
  | .logError _ => [.foreign]
  | .registered _ _ | .unregistered _ => []
  -- the dispatcher is called by the handler
  | .dispatched _ _ => []

/-- The effect is followed by statements of the native. -/
def Effect.precedes : Effect P → Bool
  | .constructed _ | .request _ _ => true
  | _ => false

/-- The statements of a native, given what it returns. -/
def Native.statements (host : Host) (params : List Cell) (r : NativeReturn P) :
    Native → List ThreadOp
  | .mqttCreateConnectOptions => [.makeOptions host.optionsFailure]
  | native =>
      r.effects.flatMap (Effect.statements native host params r.value) ++
        r.removed.toList.map fun client => .destroyClient client.object

/-- What the native has done to the globals when its first statement above is reached. -/
def Native.entered (globals : Globals P) (r : NativeReturn P) : Native → Globals P
  | .mqttCreateConnectOptions => globals
  -- whatever comes before a construction or a request leaves the globals alone
  | _ => if r.effects.any Effect.precedes then globals else r.globals

/-- The objects a native constructs. -/
def NativeReturn.objects (r : NativeReturn P) : List ObjectId :=
  r.effects.filterMap fun
    | .constructed object => some object
    | _ => none

end Statements

/-! ## The system -/

structure Threads (P : PahoOptions) (n : Nat) where
  shared : Shared P
  holder : Mutex → Option (Thread n)
  stack : Thread n → List ThreadOp

/-- One step of one thread. -/
inductive ThreadAction (n : Nat) where
  /-- the thread's next statement -/
  | run (t : Thread n)
  /-- the code outside the module, or Paho, returns to the module -/
  | ret (t : Thread n)
  /-- a call into the module on the game thread -/
  | call (call : GameCall)
  /-- Paho runs a callback of this client -/
  | callback (t : Thread n) (object : ObjectId) (callback : PahoCallback)
  /-- a producer entry point is called -/
  | dispatch (t : Thread n) (call : DispatcherCall)

/-- The thread that takes the step. -/
def ThreadAction.thread {n : Nat} : ThreadAction n → Thread n
  | .run t | .ret t | .callback t _ _ | .dispatch t _ => t
  | .call _ => .game

namespace Threads

variable {P : PahoOptions} {n : Nat}

def initial : Threads P n := ⟨.initial, fun _ => none, fun _ => []⟩

/-- Put statements before what the thread has to run. -/
def push (t : Thread n) (statements : List ThreadOp) (s : Threads P n) : Threads P n :=
  { s with stack := Function.update s.stack t (statements ++ s.stack t) }

/-- The thread runs code that can call producers: its own, Pawn's or Paho's. -/
def away (s : Threads P n) (t : Thread n) : Bool :=
  match s.stack t with
  | [] | .foreign :: _ | .paho _ _ :: _ => true
  | _ => false

/-- Pawn, AMXX or the engine can call the module. -/
def callable (s : Threads P n) : Bool :=
  match s.stack .game with
  | [] | .foreign :: _ => true
  | _ => false

/-- Paho can run callbacks on the thread: a worker of its own, or a thread inside one of its
operations. -/
def receptive (s : Threads P n) (t : Thread n) : Bool :=
  match t, s.stack t with
  | .worker _, [] => true
  | _, .paho _ _ :: _ => true
  | _, _ => false

/-- No worker is inside a callback of the client. -/
def quiet (s : Threads P n) (object : ObjectId) : Prop :=
  ∀ i, .callbackReturn object ∉ s.stack (.worker i)

instance (s : Threads P n) (object : ObjectId) : Decidable (s.quiet object) :=
  inferInstanceAs (Decidable (∀ _, _))

/-- Run the thread's next statement. -/
def run (s : Threads P n) (t : Thread n) : Option (Threads P n) :=
  match s.stack t with
  | [] => none
  | .lock mutex :: rest =>
      if s.holder mutex = none then
        some { s with
          holder := Function.update s.holder mutex (some t)
          stack := Function.update s.stack t rest }
      else none
  | .unlock mutex :: rest =>
      some { s with
        holder := Function.update s.holder mutex none
        stack := Function.update s.stack t rest }
  | op :: rest =>
      (op.exec s.shared).map fun (shared, statements) =>
        { s with shared, stack := Function.update s.stack t (statements ++ rest) }

/-- Leave the code outside the module.  `MQTTAsync_destroy` returns when no callback of the
client is in progress, and the client is gone then. -/
def ret (s : Threads P n) (t : Thread n) : Option (Threads P n) :=
  match s.stack t with
  | .foreign :: rest => some { s with stack := Function.update s.stack t rest }
  | .paho object operation :: rest =>
      if operation = .destroy then
        if s.quiet object then
          some { s with
            shared := { s.shared with unlisted := s.shared.unlisted.erase object }
            stack := Function.update s.stack t rest }
        else none
      else some { s with stack := Function.update s.stack t rest }
  | _ => none

/-- A native is called. -/
def enterNative (s : Threads P n) (native : Native) (host : Host) (params : List Cell)
    (r : NativeReturn P) : Threads P n :=
  { s with
    shared := { s.shared with
      globals := native.entered s.shared.globals r
      unlisted := r.objects.foldl (fun unlisted object => unlisted.insert object { object })
        s.shared.unlisted
      constructed := r.objects ++ s.shared.constructed }.unlist r.removed.toList }.push .game
    (native.statements host params r)

def enter (s : Threads P n) : GameCall → Option (Threads P n)
  | .native native host args =>
      match native.invoke host (frame args) s.shared.globals with
      | .ok r =>
          if ∀ object ∈ r.objects, object ∉ s.shared.constructed then
            some (s.enterNative native host (frame args) r)
          else none
      | .error _ => none
  | .onServerFrame =>
      if s.shared.globals.frameHook.hooks = [] then none
      else some (s.push .game (GameCall.onServerFrame.body.map GameOp.statement))
  | call => some (s.push .game (call.body.map GameOp.statement))

def step (s : Threads P n) : ThreadAction n → Option (Threads P n)
  | .run t => s.run t
  | .ret t => s.ret t
  | .call call => if s.callable then s.enter call else none
  | .callback t object callback =>
      if s.receptive t ∧ (s.shared.client object).isSome then
        some (s.push t (callback.statements object))
      else none
  | .dispatch t call => if s.away t then some (s.push t [.enqueueCallback call.event]) else none

theorem push_stack (t : Thread n) (statements : List ThreadOp) (s : Threads P n) :
    (s.push t statements).stack = Function.update s.stack t (statements ++ s.stack t) := rfl

theorem enterNative_stack (s : Threads P n) (native : Native) (host : Host) (params : List Cell)
    (r : NativeReturn P) : (s.enterNative native host params r).stack =
      Function.update s.stack .game (native.statements host params r ++ s.stack .game) := rfl

section Run

variable {s : Threads P n} {t : Thread n} {mutex : Mutex} {op : ThreadOp} {shared : Shared P}
  {statements rest : List ThreadOp}

theorem run_lock (top : s.stack t = .lock mutex :: rest) (free : s.holder mutex = none) :
    s.run t = some { s with
      holder := Function.update s.holder mutex (some t)
      stack := Function.update s.stack t rest } := by
  simp only [run, top, free, ↓reduceIte]

theorem run_unlock (top : s.stack t = .unlock mutex :: rest) :
    s.run t = some { s with
      holder := Function.update s.holder mutex none
      stack := Function.update s.stack t rest } := by
  simp only [run, top]

theorem run_exec (top : s.stack t = op :: rest)
    (executed : op.exec s.shared = some (shared, statements)) :
    s.run t = some { s with
      shared, stack := Function.update s.stack t (statements ++ rest) } := by
  unfold run
  rw [top]
  cases op with
  | lock | unlock => cases executed
  | _ => simp only [executed, Option.map_some]

end Run

/-! ## What one step can do -/

inductive Steps (s : Threads P n) : ThreadAction n → Threads P n → Prop
  | lock {t : Thread n} {mutex : Mutex} {rest : List ThreadOp}
      (top : s.stack t = .lock mutex :: rest) (free : s.holder mutex = none) :
      Steps s (.run t) { s with
        holder := Function.update s.holder mutex (some t)
        stack := Function.update s.stack t rest }
  | unlock {t : Thread n} {mutex : Mutex} {rest : List ThreadOp}
      (top : s.stack t = .unlock mutex :: rest) :
      Steps s (.run t) { s with
        holder := Function.update s.holder mutex none
        stack := Function.update s.stack t rest }
  | exec {t : Thread n} {op : ThreadOp} {shared : Shared P} {statements rest : List ThreadOp}
      (top : s.stack t = op :: rest) (executed : op.exec s.shared = some (shared, statements)) :
      Steps s (.run t) { s with
        shared, stack := Function.update s.stack t (statements ++ rest) }
  | ret {t : Thread n} {rest : List ThreadOp} (top : s.stack t = .foreign :: rest) :
      Steps s (.ret t) { s with stack := Function.update s.stack t rest }
  | pahoRet {t : Thread n} {object : ObjectId} {operation : PahoOp} {shared : Shared P}
      {rest : List ThreadOp} (top : s.stack t = .paho object operation :: rest)
      (destroyed : operation = .destroy → s.quiet object)
      (left : shared = s.shared ∨
        shared = { s.shared with unlisted := s.shared.unlisted.erase object }) :
      Steps s (.ret t) { s with shared, stack := Function.update s.stack t rest }
  | native {native : Native} {host : Host} {args : List Cell} {r : NativeReturn P}
      (callable : s.callable = true)
      (invoked : native.invoke host (frame args) s.shared.globals = .ok r)
      (fresh : ∀ object ∈ r.objects, object ∉ s.shared.constructed) :
      Steps s (.call (.native native host args)) (s.enterNative native host (frame args) r)
  | entered {call : GameCall} (callable : s.callable = true)
      (plain : ∀ native host args, call ≠ .native native host args) :
      Steps s (.call call) (s.push .game (call.body.map GameOp.statement))
  | callback {t : Thread n} {object : ObjectId} {callback : PahoCallback}
      (receptive : s.receptive t = true) (known : (s.shared.client object).isSome = true) :
      Steps s (.callback t object callback) (s.push t (callback.statements object))
  | dispatch {t : Thread n} {call : DispatcherCall} (away : s.away t = true) :
      Steps s (.dispatch t call) (s.push t [.enqueueCallback call.event])

theorem steps_of_run {s s' : Threads P n} {t : Thread n} (taken : s.run t = some s') :
    Steps s (.run t) s' := by
  unfold run at taken
  split at taken
  · cases taken
  · split at taken
    · cases taken
      exact .lock ‹_› ‹_›
    · cases taken
  · cases taken
    exact .unlock ‹_›
  · obtain ⟨⟨shared, statements⟩, executed, rfl⟩ := Option.map_eq_some_iff.mp taken
    exact .exec ‹_› executed

theorem steps_of_ret {s s' : Threads P n} {t : Thread n} (taken : s.ret t = some s') :
    Steps s (.ret t) s' := by
  unfold ret at taken
  split at taken
  · cases taken
    exact .ret ‹_›
  · rename_i top
    split at taken
    · split at taken
      · cases taken
        exact .pahoRet top (fun _ => ‹_›) (.inr rfl)
      · cases taken
    · rename_i different
      cases taken
      exact .pahoRet top (fun same => absurd same different) (.inl rfl)
  · cases taken

theorem steps_of_enter {s s' : Threads P n} {call : GameCall} (callable : s.callable = true)
    (taken : s.enter call = some s') : Steps s (.call call) s' := by
  cases call with
  | native native host args =>
      simp only [enter] at taken
      split at taken
      · split at taken
        · cases taken
          exact .native callable ‹_› ‹_›
        · cases taken
      · cases taken
  | onServerFrame =>
      simp only [enter] at taken
      split at taken
      · cases taken
      · cases taken
        exact .entered callable (by simp)
  | _ =>
      cases taken
      exact .entered callable (by simp)

/-- **What one step can do.** -/
theorem steps {s s' : Threads P n} {action : ThreadAction n} (taken : s.step action = some s') :
    Steps s action s' := by
  cases action with
  | run t => exact steps_of_run taken
  | ret t => exact steps_of_ret taken
  | call call =>
      simp only [step] at taken
      split at taken
      · exact steps_of_enter ‹_› taken
      · cases taken
  | callback t object callback =>
      simp only [step] at taken
      split at taken
      · rename_i enabled
        cases taken
        exact .callback enabled.1 enabled.2
      · cases taken
  | dispatch t call =>
      simp only [step] at taken
      split at taken
      · cases taken
        exact .dispatch ‹_›
      · cases taken

end Threads

end AmxxMqtt
