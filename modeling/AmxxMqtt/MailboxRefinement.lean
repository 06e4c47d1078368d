import AmxxMqtt.Lib.Mailbox
import AmxxMqtt.InFlight

/-!
# The module is a mailbox

What the module does with callbacks, on all its threads and with every lock and unlock a step of
its own, is what a `Mailbox` does: the members are the handles, a member's routes are the forwards
its client has stored, an event is posted in the critical section of `enqueueCallback` and
delivered when AMXX is asked to execute a forward.  Every step of the module is a stutter or one
step of the mailbox, except that `reset` makes every member leave.

What a step shows is read off its statement, or off what a native was asked and returned, and the
forward an event goes to is the one of `executeCallback`.  The handles issued and destroyed, the
forwards registered and the queue's opening and closing show as well, so the mailbox has no choice
in them.
-/

namespace AmxxMqtt

open Mailbox Refinement

abbrev EventLetter := Letter Int CallbackType (List ForwardArg)

abbrev EventBox := Box Int CallbackType Int (List ForwardArg)

abbrev EventAct := Act Int CallbackType Int (List ForwardArg)

abbrev EventSight := Sight Int CallbackType Int (List ForwardArg)

/-- The mailbox sees the statement. -/
def ThreadOp.seen : ThreadOp → Bool
  | .pushBack _ | .setAccepting | .clearPending | .executeCallback _ | .emplace _ _
  | .resetClients => true
  | _ => false

def CallbackEvent.letter (event : CallbackEvent) : EventLetter :=
  ⟨event.handle, event.type, event.args⟩

/-- The forward the client has for a kind of callback. -/
def AmxxMqttClient.route (client : AmxxMqttClient) (type : CallbackType) : Option Int :=
  if client.forwardId type ≠ -1 then some (client.forwardId type) else none

theorem AmxxMqttClient.Bare.route {client : AmxxMqttClient} (bare : client.Bare) :
    client.route = fun _ => none := by
  funext type
  exact if_neg (not_not.mpr (bare type))

theorem AmxxMqttClient.route_setForwardId {client : AmxxMqttClient} {type : CallbackType}
    {id : Int} (valid : id ≠ -1) : (client.setForwardId type id).1.route =
      Function.update client.route type (some id) := by
  funext other
  by_cases same : other = type
  · subst same
    rw [Function.update_self, AmxxMqttClient.route, forwardId_setForwardId, if_pos rfl,
      if_pos valid]
  · rw [Function.update_of_ne same, AmxxMqttClient.route, forwardId_setForwardId, if_neg same]
    rfl

/-- The forwards of the clients the manager has. -/
def MqttClientMgr.routes (clients : MqttClientMgr) (handle : Int) :
    Option (CallbackType → Option Int) :=
  (clients.getClient handle).map AmxxMqttClient.route

/-- `ExecuteCallback` delivers an event to the route it has. -/
theorem executeCallback_eq_map (clients : MqttClientMgr) (event : CallbackEvent) :
    executeCallback clients event =
      ((clients.routes event.handle).bind fun routes => routes event.type).map
        fun id => (id, event.args) := by
  ext ⟨id, args⟩
  rw [executeCallback_eq_some_iff]
  unfold MqttClientMgr.routes AmxxMqttClient.route
  cases clients.getClient event.handle with
  | none => simp
  | some client =>
      by_cases valid : client.forwardId event.type = -1 <;> simp [valid] <;> grind

/-- What a native that has returned shows: the handle it destroyed, the forward it registered. -/
def Native.sights {P : PahoOptions} (native : Native) (params : List Cell) (r : NativeReturn P) :
    List EventSight :=
  match native, native.callbackType with
  | .mqttDestroy, _ => if r.value = 1 then params[1]?.toList.map .retired else []
  | _, some type =>
      params[1]?.toList.flatMap fun handle =>
        r.effects.filterMap fun
          | .registered id _ => some (.subscribed handle type (some id))
          | _ => none
  | _, none => []

section Sights

variable {P : PahoOptions} {native : Native} {params : List Cell} {r : NativeReturn P}

theorem Native.sights_requests (kind : native.requests = true) : native.sights params r = [] := by
  cases native <;> first | rfl | cases kind

theorem Native.sights_rejection {g : Globals P} {error : NativeError} :
    native.sights params (rejection g error) = [] := by
  cases native <;> simp [Native.sights, Native.callbackType, rejection]

theorem Native.sights_destroyed {handle : Cell} (arg : params[1]? = some handle)
    (done : r.value = 1) : Native.sights .mqttDestroy params r = [.retired handle] := by
  simp [Native.sights, arg, done]

theorem Native.sights_registered {type : CallbackType} {handle : Cell} {id : Int}
    {signature : List ForwardParam} {released : List Int} (kind : native.callbackType = some type)
    (arg : params[1]? = some handle)
    (effects : r.effects = .registered id signature :: released.map .unregistered) :
    native.sights params r = [.subscribed handle type (some id)] := by
  cases native <;> cases kind <;>
    simp [Native.sights, Native.callbackType, arg, effects, List.filterMap_map]

end Sights

namespace Threads

variable {P : PahoOptions} {n : Nat} {s s' : Threads P n} {t : Thread n} {box : EventBox}

/-- What a step shows of the callbacks. -/
def shows (s : Threads P n) : ThreadAction n → List EventSight
  | .run t =>
      match s.stack t with
      | .setAccepting :: _ => [.opened]
      | .clearPending :: _ => [.closed]
      | .emplace handle _ :: _ => [.enrolled handle]
      | .resetClients :: _ => s.shared.globals.clients.clients.keys.map .retired
      | .pushBack event :: _ => [.posted event.letter]
      | .executeCallback event :: _ =>
          [(executeCallback s.shared.globals.clients event).elim (.dropped event.letter)
            fun (id, args) => .delivered ⟨event.handle, event.type, args⟩ id]
      | _ => []
  | .call (.native native host args) =>
      match native.invoke host (frame args) s.shared.globals with
      | .ok r => native.sights (frame args) r
      | .error _ => []
  | _ => []

/-- The mailbox a state of the module stands for. -/
structure Represents (s : Threads P n) (box : EventBox) : Prop where
  isOpen : box.isOpen = s.shared.globals.queue.acceptingCallbacks
  pending : box.pending =
    (flight (s.stack .game) ++ s.shared.globals.queue.pendingCallbacks).map CallbackEvent.letter
  routes : box.routes = s.shared.globals.clients.routes
  former : ∀ handle, handle ∈ box.former ↔
    1 ≤ handle ∧ handle < s.shared.globals.clients.nextHandle

theorem represents_initial : (initial : Threads P n).Represents .initial where
  isOpen := rfl
  pending := rfl
  routes := rfl
  former handle := by
    show handle ∈ [] ↔ 1 ≤ handle ∧ handle < 1
    simp only [List.not_mem_nil, false_iff]
    omega

/-- A step the mailbox does not see. -/
theorem Represents.stutter (represents : s.Represents box)
    (queue : s'.shared.globals.queue = s.shared.globals.queue)
    (routes : s'.shared.globals.clients.routes = s.shared.globals.clients.routes)
    (next : s'.shared.globals.clients.nextHandle = s.shared.globals.clients.nextHandle)
    (same : flight (s'.stack .game) = flight (s.stack .game)) : s'.Represents box where
  isOpen := queue ▸ represents.isOpen
  pending := queue ▸ same ▸ represents.pending
  routes := routes ▸ represents.routes
  former := next ▸ represents.former

/-- What the mailbox does when the module takes the step. -/
def Matches (s : Threads P n) (action : ThreadAction n) (s' : Threads P n)
    (box : EventBox) : Prop :=
  ∃ acts after, Transition.run Box.step box acts = some after ∧
    observed Box.step Box.shows box acts = s.shows action ∧ s'.Represents after

theorem Represents.silent {action : ThreadAction n} (represents : s'.Represents box)
    (quiet : s.shows action = []) : s.Matches action s' box :=
  ⟨[], box, rfl, quiet.symm, represents⟩

theorem Represents.unseen {action : ThreadAction n} (represents : s.Represents box)
    (quiet : s.shows action = [])
    (queue : s'.shared.globals.queue = s.shared.globals.queue)
    (routes : s'.shared.globals.clients.routes = s.shared.globals.clients.routes)
    (next : s'.shared.globals.clients.nextHandle = s.shared.globals.clients.nextHandle)
    (same : flight (s'.stack .game) = flight (s.stack .game)) : s.Matches action s' box :=
  (represents.stutter queue routes next same).silent quiet

theorem matches_act {action : ThreadAction n} {after : EventBox} (act : EventAct)
    (taken : box.step act = some after)
    (same : box.shows act = s.shows action) (represents : s'.Represents after) :
    s.Matches action s' box :=
  ⟨[act], after, Transition.run_singleton.mpr taken, (observed_singleton taken).trans same,
    represents⟩

theorem flight_update {stack : List ThreadOp}
    (same : t = .game → flight stack = flight (s.stack .game)) :
    flight (Function.update s.stack t stack .game) = flight (s.stack .game) := by
  cases t with
  | worker i => rfl
  | game =>
      rw [Function.update_self]
      exact same rfl

theorem game_of_producing (sound : s.Sound) {op : ThreadOp} {rest : List ThreadOp}
    (top : s.stack t = op :: rest) (other : op.producing = false) : t = .game := by
  cases t with
  | game => rfl
  | worker i => cases other.symm.trans (sound.workers_cons top).1

theorem shows_run {op : ThreadOp} {rest : List ThreadOp} (top : s.stack t = op :: rest)
    (unseen : op.seen = false) : s.shows (.run t) = [] := by
  simp only [shows, top]
  cases op <;> first | rfl | cases unseen

/-! ## Statements the mailbox does not see -/

theorem routes_modifyBase (shared : Shared P) (object : ObjectId)
    (f : MqttClient BoundHandler → MqttClient BoundHandler) :
    (shared.modifyBase object f).globals.clients.routes = shared.globals.clients.routes ∧
      (shared.modifyBase object f).globals.clients.nextHandle =
        shared.globals.clients.nextHandle ∧
      (shared.modifyBase object f).globals.queue = shared.globals.queue := by
  unfold Shared.modifyBase
  cases this : shared.client object with
  | none => exact ⟨rfl, rfl, rfl⟩
  | some client =>
      cases place : shared.handleOf object with
      | none =>
          simp only [Shared.setClient, place]
          exact ⟨trivial, trivial, trivial⟩
      | some handle =>
          have live : shared.globals.clients.getClient handle = some client := by
            simpa only [Shared.client, place] using this
          simp only [Shared.setClient, place]
          refine ⟨?_, rfl, trivial⟩
          funext other
          simp only [MqttClientMgr.routes, MqttClientMgr.setClient, MqttClientMgr.getClient,
            Table.lookup_insert_iff]
          split
          · rename_i same
            subst same
            rw [show shared.globals.clients.clients.lookup other = some client from live]
            exact congrArg some (funext fun type => by cases type <;> rfl)
          · rfl

theorem exec_unseen {shared shared' : Shared P} {op : ThreadOp} {statements : List ThreadOp}
    (unseen : op.seen = false) (other : op.takes = false)
    (executed : op.exec shared = some (shared', statements)) :
    shared'.globals.clients.routes = shared.globals.clients.routes ∧
      shared'.globals.clients.nextHandle = shared.globals.clients.nextHandle ∧
      shared'.globals.queue = shared.globals.queue := by
  cases op with
  | foreign | paho | lock | unlock => cases executed
  | pushBack | setAccepting | clearPending | executeCallback | emplace | resetClients =>
      cases unseen
  | takeFront => cases other
  | drain remaining => cases remaining <;> cases executed <;> exact ⟨rfl, rfl, rfl⟩
  | copyHandler | makeIndex =>
      simp only [ThreadOp.exec] at executed
      split at executed <;> cases executed <;> exact ⟨rfl, rfl, rfl⟩
  | buildOptions =>
      simp only [ThreadOp.exec] at executed
      split at executed
      · split at executed <;> cases executed <;> exact ⟨rfl, rfl, rfl⟩
      · cases executed
        exact ⟨rfl, rfl, rfl⟩
  | storeConnected | storeHandler | setStopping =>
      cases executed
      exact routes_modifyBase shared _ _
  | _ =>
      cases executed
      exact ⟨rfl, rfl, rfl⟩

/-! ## Statements the mailbox sees -/

section Seen

variable {shared : Shared P} {statements rest : List ThreadOp}

/-- The state after the thread's top statement. -/
def replaced (s : Threads P n) (t : Thread n) (shared : Shared P) (stack : List ThreadOp) :
    Threads P n :=
  { s with shared, stack := Function.update s.stack t stack }

theorem flight_popped {op : ThreadOp} (top : s.stack t = op :: rest)
    (still : op.delivers = none) :
    flight (Function.update s.stack t rest .game) = flight (s.stack .game) :=
  flight_update fun same => by rw [← same, top, flight_cons still]

theorem matches_pushBack {event : CallbackEvent} (represents : s.Represents box)
    (top : s.stack t = .pushBack event :: rest) :
    s.Matches (.run t)
      (s.replaced t (s.shared.setQueue (s.shared.globals.queue.enqueueCallback event)) rest)
      box := by
  have flying := flight_popped top rfl
  refine matches_act (.post event.letter) rfl (by simp only [Box.shows, shows, top]) ?_
  cases accepting : s.shared.globals.queue.acceptingCallbacks with
  | false =>
      rw [represents.isOpen, accepting, if_neg (by simp)]
      refine represents.stutter ?_ rfl rfl flying
      exact CallbackQueue.enqueueCallback_of_not_accepting event accepting
  | true =>
      rw [represents.isOpen, accepting, if_pos rfl]
      have queue := CallbackQueue.enqueueCallback_of_accepting event accepting
      refine ⟨?_, ?_, represents.routes, represents.former⟩
      · exact (congrArg CallbackQueue.acceptingCallbacks queue).symm
      · simp only [replaced, Shared.setQueue, queue, flying, represents.pending, List.map_append,
          List.map_cons, List.map_nil, List.append_assoc]

theorem matches_executeCallback {event : CallbackEvent} (represents : s.Represents box)
    (top : s.stack .game = .executeCallback event :: rest) (settled : flight statements = []) :
    s.Matches (.run .game) (s.replaced .game s.shared (statements ++ rest)) box := by
  have waiting : box.pending = event.letter ::
      (flight rest ++ s.shared.globals.queue.pendingCallbacks).map CallbackEvent.letter := by
    rw [represents.pending, top]
    rfl
  have taken : box.step .deliver = some { box with
      pending :=
        (flight rest ++ s.shared.globals.queue.pendingCallbacks).map CallbackEvent.letter } := by
    simp only [Box.step, waiting]
  refine matches_act _ taken ?_ ⟨represents.isOpen, ?_, represents.routes, represents.former⟩
  · simp only [Box.shows, shows, top, waiting, List.head?_cons, Option.toList_some, List.map_cons,
      List.map_nil, Box.route, represents.routes, executeCallback_eq_map, Option.elim_map]
    rfl
  · simp only [replaced, Function.update_self, flight_append, settled, List.nil_append]

theorem matches_setAccepting (represents : s.Represents box)
    (top : s.stack .game = .setAccepting :: rest) :
    s.Matches (.run .game)
      (s.replaced .game (s.shared.setQueue s.shared.globals.queue.startCallbackDispatcher) rest)
      box := by
  have flying := flight_popped top rfl
  refine matches_act .opened rfl (by simp only [Box.shows, shows, top])
    ⟨rfl, ?_, represents.routes, represents.former⟩
  exact represents.pending.trans (congrArg _ (congrArg (· ++ _) flying.symm))

/-- The queue is closed with no event in flight. -/
theorem matches_clearPending (regular : s.Regular) (represents : s.Represents box)
    (top : s.stack .game = .clearPending :: rest) :
    s.Matches (.run .game)
      (s.replaced .game (s.shared.setQueue s.shared.globals.queue.stopCallbackDispatcher) rest)
      box := by
  have settled : flight rest = [] := (top ▸ regular.orderly).settled rfl
  refine matches_act .closed rfl (by simp only [Box.shows, shows, top])
    ⟨rfl, ?_, represents.routes, represents.former⟩
  simp only [replaced, Function.update_self, settled]
  rfl

/-- An event leaves the queue and is in flight: the letter is still in the mailbox. -/
theorem matches_takeFront (regular : s.Regular) (represents : s.Represents box) {remaining : Nat}
    (top : s.stack .game = .takeFront remaining :: rest)
    (executed : (ThreadOp.takeFront remaining).exec s.shared = some (shared, statements)) :
    s.Matches (.run .game) (s.replaced .game shared (statements ++ rest)) box := by
  have settled : flight rest = [] := (top ▸ regular.orderly).settled rfl
  have before : flight (s.stack .game) = [] := by rw [top, flight_cons rfl, settled]
  refine Represents.silent ?_ (shows_run top rfl)
  simp only [ThreadOp.exec] at executed
  split at executed
  · cases executed
    refine represents.stutter rfl rfl rfl ?_
    simp only [replaced, Function.update_self, before, List.singleton_append]
    exact (flight_cons rfl).trans settled
  · rename_i event queue taken
    obtain ⟨front, accepting⟩ := CallbackQueue.takeFront_eq_some_iff.mp taken
    cases executed
    refine ⟨?_, ?_, represents.routes, represents.former⟩
    · rw [represents.isOpen, front]
      exact accepting.symm
    · have flying : flight [.unlock .callbackMutex, .executeCallback event, .drain remaining] =
          [event] := rfl
      rw [represents.pending, before, front]
      simp only [replaced, Function.update_self, flight_append, flying, settled, List.append_nil]
      rfl

theorem matches_emplace (regular : s.Regular) (represents : s.Represents box) {handle : Int}
    {object : ObjectId} (top : s.stack .game = .emplace handle object :: rest)
    (executed : (ThreadOp.emplace handle object).exec s.shared = some (shared, statements)) :
    s.Matches (.run .game) (s.replaced .game shared (statements ++ rest)) box := by
  have tracked := regular.tracked
  have here : ThreadOp.emplace handle object ∈ s.stack .game := top ▸ List.mem_cons_self
  obtain ⟨next, small, _⟩ := tracked.room here
  have free : handle ∉ s.shared.globals.clients.clients := next ▸ tracked.clients.next_notMem
  have owned : s.shared.loose object := tracked.alive.owner.mpr ⟨_, here, rfl⟩
  obtain ⟨client, found⟩ := Option.isSome_iff_exists.mp owned
  have bare := regular.bare here client found
  have increment : (s.shared.globals.clients.nextHandle + 1) % 2 ^ 64 =
      s.shared.globals.clients.nextHandle + 1 := by
    unfold int32Max at small
    exact Nat.mod_eq_of_lt (by omega)
  have unknown : handle ∉ box.former := by
    rw [represents.former]
    omega
  have positive := tracked.clients.next_pos
  simp only [ThreadOp.exec, found, increment] at executed
  cases executed
  have taken : box.step (.enroll handle) = some { box with
      routes := Function.update box.routes handle (some (fun _ => none))
      former := handle :: box.former } := if_neg unknown
  refine matches_act _ taken (by simp only [Box.shows, shows, top])
    ⟨represents.isOpen, ?_, ?_, fun other => ?_⟩
  · exact represents.pending.trans (congrArg _ (congrArg (· ++ _) (flight_popped top rfl).symm))
  · funext other
    rw [represents.routes]
    simp only [replaced, MqttClientMgr.routes, MqttClientMgr.getClient, MqttClientMgr.emplace,
      if_neg free, Table.lookup_insert_iff]
    by_cases same : other = handle
    · subst same
      rw [Function.update_self, if_pos rfl, Option.map_some, bare.route]
    · rw [Function.update_of_ne same, if_neg same]
      rfl
  · rw [List.mem_cons, represents.former]
    simp only [replaced]
    push_cast
    omega

theorem matches_resetClients (represents : s.Represents box)
    (top : s.stack .game = .resetClients :: rest)
    (executed : ThreadOp.resetClients.exec s.shared = some (shared, statements)) :
    s.Matches (.run .game) (s.replaced .game shared (statements ++ rest)) box := by
  have settled := (ThreadOp.exec_flight executed).2 rfl
  cases executed
  refine ⟨s.shared.globals.clients.clients.keys.map .retire, _, run_retire _,
    (observed_retire _).trans ?_, represents.isOpen, ?_, ?_, represents.former⟩
  · simp only [shows, top]
  · have flying := flight_popped top rfl
    simp only [Function.update_self] at flying
    rw [represents.pending, ← flying]
    simp only [replaced, Function.update_self, flight_append, settled, List.nil_append]
    rfl
  · funext other
    simp only [represents.routes, replaced, MqttClientMgr.routes, MqttClientMgr.getClient]
    split
    · rfl
    · rename_i absent
      rw [AList.lookup_eq_none.mpr absent]
      rfl

end Seen

/-! ## Natives -/

section Native

variable {native : Native} {host : Host} {params : List Cell} {r : NativeReturn P}
  {g : Globals P}

/-- A native with no statements of its own after it has returned. -/
theorem entered_of_quiet (other : native ≠ .mqttCreateConnectOptions)
    (quiet : ∀ effect ∈ r.effects, effect.precedes = false) : native.entered g r = r.globals := by
  have none : r.effects.any Effect.precedes = false := List.any_eq_false.mpr fun effect member => by
    simp [quiet effect member]
  cases native with
  | mqttCreateConnectOptions => exact absurd rfl other
  | _ => simp only [Native.entered, none, Bool.false_eq_true, ↓reduceIte]

theorem globals_enterNative :
    (s.enterNative native host params r).shared.globals = native.entered s.shared.globals r := rfl

theorem flight_enterNative :
    flight ((s.enterNative native host params r).stack .game) = flight (s.stack .game) := by
  rw [enterNative_stack, Function.update_self, flight_append, flight_native, List.nil_append]

theorem matches_native (represents : s.Represents box) {args : List Cell}
    (invoked : native.invoke host (frame args) s.shared.globals = .ok r) :
    s.Matches (.call (.native native host args))
      (s.enterNative native host (frame args) r) box := by
  have returns := Native.returns invoked
  have shown : s.shows (.call (.native native host args)) = native.sights (frame args) r := by
    simp only [shows, invoked]
  have queue := queue_entered returns
  have opened : box.isOpen = (native.entered s.shared.globals r).queue.acceptingCallbacks := by
    rw [queue, represents.isOpen]
  have pending : box.pending =
      (flight ((s.enterNative native host (frame args) r).stack .game) ++
        (native.entered s.shared.globals r).queue.pendingCallbacks).map CallbackEvent.letter := by
    rw [queue, flight_enterNative, represents.pending]
  have unchanged (same : (native.entered s.shared.globals r).clients = s.shared.globals.clients)
      (quiet : native.sights (frame args) r = []) : s.Matches (.call (.native native host args))
        (s.enterNative native host (frame args) r) box := by
    refine Represents.silent ⟨opened, pending, ?_, ?_⟩ (shown.trans quiet)
    · rw [globals_enterNative, same, represents.routes]
    · rw [globals_enterNative, same]
      exact represents.former
  cases returns with
  | created made => exact unchanged rfl rfl
  | @destroyed handle arg =>
      refine matches_act (.retire handle) rfl (shown.trans ?_).symm
        ⟨opened, pending, ?_, represents.former⟩
      · exact Native.sights_destroyed arg rfl
      · funext other
        show Function.update box.routes handle none other =
          ((s.shared.globals.clients.clients.erase handle).lookup other).map _
        rw [Table.lookup_erase_iff, represents.routes]
        by_cases same : other = handle
        · rw [same, Function.update_self, if_pos rfl, Option.map_none]
        · rw [Function.update_of_ne same, if_neg same]
          rfl
  | @stored native type handle name client id kind arg nameArg live registered valid =>
      have mine : box.routes handle = some client.route := by
        rw [represents.routes, MqttClientMgr.routes, live, Option.map_some]
      have taken : box.step (.subscribe handle type (some id)) = some { box with
          routes := Function.update box.routes handle
            (some (Function.update client.route type (some id))) } := by
        simp only [Box.step, mine, Option.map_some]
      have other : native ≠ .mqttCreateConnectOptions := by
        intro same
        subst same
        cases kind
      have quiet : ∀ effect ∈ Effect.registered id type.signature ::
          (client.setForwardId type id).2.map (Effect.unregistered (P := P)),
          effect.precedes = false := by
        refine List.forall_mem_cons.mpr ⟨rfl, fun effect member => ?_⟩
        obtain ⟨_, _, rfl⟩ := List.mem_map.mp member
        rfl
      refine matches_act _ taken (shown.trans ?_).symm ⟨opened, pending, ?_, ?_⟩
      · exact Native.sights_registered kind arg rfl
      · rw [globals_enterNative, entered_of_quiet other quiet]
        funext other
        simp only [MqttClientMgr.routes, MqttClientMgr.setClient, MqttClientMgr.getClient,
          Table.lookup_insert_iff]
        by_cases same : other = handle
        · rw [same, Function.update_self, if_pos rfl, Option.map_some,
            AmxxMqttClient.route_setForwardId valid]
        · rw [Function.update_of_ne same, if_neg same, represents.routes]
          rfl
      · rw [globals_enterNative, entered_of_quiet other quiet]
        exact represents.former
  | rejected => exact unchanged (entered_of_same rfl) Native.sights_rejection
  | requested kind | requestThrew kind =>
      exact unchanged (entered_of_same rfl) (Native.sights_requests kind)
  | _ => exact unchanged (entered_of_same rfl) rfl

end Native

/-! ## Every step -/

theorem matches_exec (regular : s.Regular) (represents : s.Represents box) {op : ThreadOp}
    {statements rest : List ThreadOp} {shared : Shared P} (top : s.stack t = op :: rest)
    (executed : op.exec s.shared = some (shared, statements)) :
    s.Matches (.run t) (s.replaced t shared (statements ++ rest)) box := by
  have game (other : op.producing = false) : t = .game :=
    game_of_producing regular.tracked.sound top other
  cases seen : op.seen with
  | false =>
      cases takes : op.takes with
      | false =>
          obtain ⟨routes, next, queue⟩ := exec_unseen seen takes executed
          refine represents.unseen (shows_run top seen) queue routes next ?_
          refine flight_update fun here => ?_
          have still : op.delivers = none := by
            cases op <;> first | rfl | cases seen
          rw [flight_append, (ThreadOp.exec_flight executed).2 takes, ← here, top,
            flight_cons still, List.nil_append]
      | true =>
          cases op with
          | takeFront remaining =>
              cases game rfl
              exact matches_takeFront regular represents top executed
          | _ => cases takes
  | true =>
      cases op with
      | pushBack event =>
          cases executed
          exact matches_pushBack represents top
      | setAccepting =>
          cases game rfl
          cases executed
          exact matches_setAccepting represents top
      | clearPending =>
          cases game rfl
          cases executed
          exact matches_clearPending regular represents top
      | executeCallback event =>
          cases game rfl
          have settled := (ThreadOp.exec_flight executed).2 rfl
          simp only [ThreadOp.exec] at executed
          split at executed <;> cases executed <;>
            exact matches_executeCallback represents top settled
      | emplace handle object =>
          cases game rfl
          exact matches_emplace regular represents top executed
      | resetClients =>
          cases game rfl
          exact matches_resetClients represents top executed
      | _ => cases seen

theorem matches_step {action : ThreadAction n} (regular : s.Regular)
    (represents : s.Represents box) (taken : s.step action = some s') :
    s.Matches action s' box := by
  cases steps taken with
  | @lock t mutex rest top free =>
      exact represents.unseen (shows_run top rfl) rfl rfl rfl (flight_popped top rfl)
  | @unlock t mutex rest top =>
      exact represents.unseen (shows_run top rfl) rfl rfl rfl (flight_popped top rfl)
  | exec top executed => exact matches_exec regular represents top executed
  | ret top => exact represents.unseen rfl rfl rfl rfl (flight_popped top rfl)
  | @pahoRet t object operation shared rest top destroyed left =>
      rcases left with rfl | rfl <;>
        exact represents.unseen rfl rfl rfl rfl (flight_popped top rfl)
  | native callable invoked => exact matches_native represents invoked
  | @entered call callable plain =>
      have quiet : s.shows (.call call) = [] := by
        cases call with
        | native native host args => exact absurd rfl (plain native host args)
        | _ => rfl
      refine represents.unseen quiet rfl rfl rfl ?_
      rw [push_stack, Function.update_self, flight_append, flight_body, List.nil_append]
  | @callback t object callback receptive known =>
      refine represents.unseen rfl rfl rfl rfl (flight_update fun here => ?_)
      rw [flight_append, flight_callback, here, List.nil_append]
  | @dispatch t call away =>
      refine represents.unseen rfl rfl rfl rfl (flight_update fun here => ?_)
      rw [here]
      exact flight_cons rfl

theorem simulates : Simulates (step : Threads P n → _) shows Box.step Box.shows (fun _ => True)
    fun s box => s.Regular ∧ s.Represents box := by
  intro s box action s' _ related taken
  obtain ⟨acts, after, matched, same, represents⟩ := matches_step related.1 related.2 taken
  exact ⟨acts, after, matched, same, step_regular taken related.1, represents⟩

/-- A run of the module from a state that a mailbox stands for. -/
theorem run_represents {actions : List (ThreadAction n)} (regular : s.Regular)
    (represents : s.Represents box) (ran : Transition.run step s actions = some s') :
    ∃ acts after, Transition.run Box.step box acts = some after ∧
      observed Box.step Box.shows box acts = observed step shows s actions ∧
      s'.Regular ∧ s'.Represents after :=
  simulates.run ⟨regular, represents⟩ (fun _ _ => True.intro) ran

end Threads

/-- **The module refines the mailbox**: when a mailbox does, one after the other, the acts that an
interleaving of the game thread and any number of workers shows, it shows the same.  So the letter
and the route of each delivery are those that the posts, the subscriptions, the arrivals and the
departures shown before it leave.  It ends with the letters, the members and the routes of the
module's state. -/
theorem threads_refine_mailbox {P : PahoOptions} {n : Nat} {actions : List (ThreadAction n)}
    {s : Threads P n} (ran : Transition.run Threads.step .initial actions = some s) :
    let sights := observed Threads.step Threads.shows (.initial : Threads P n) actions
    ∃ box, Transition.run Box.step (.initial : EventBox) (sights.map Sight.act) = some box ∧
      observed Box.step Box.shows (.initial : EventBox) (sights.map Sight.act) = sights ∧
      s.Represents box := by
  intro sights
  obtain ⟨acts, box, matched, same, _, represents⟩ :=
    Threads.run_represents Threads.regular_initial Threads.represents_initial ran
  -- every act of the mailbox shows, so the run that matches is the one that was shown
  have replayed : sights.map Sight.act = acts := by
    rw [← map_act_observed matched, same]
  exact ⟨box, replayed ▸ matched, replayed ▸ same, represents⟩

def registeringHost : Host := { contendedHost with registerSPForwardByName := fun _ _ => 5 }

/-- A client with a forward for its connections is made, and a worker queues an event for it. -/
def queuedConnected : List (ThreadAction 1) :=
  .call (.native .mqttCreate registeringHost [0, 0]) :: List.replicate 17 (.run .game) ++
    [.call (.native .mqttSetConnectedCallback registeringHost [1, 0]), .call .onPluginsLoaded] ++
    List.replicate 4 (.run .game) ++ [.callback loneWorker 7 (.connected [])] ++
    List.replicate 12 (.run loneWorker)

/-- A second event is queued, the forward is replaced, and both events are executed. -/
def reroutedConnected : List (ThreadAction 1) :=
  queuedConnected ++ .callback loneWorker 7 (.connectionLost []) ::
    List.replicate 12 (.run loneWorker) ++
    [.call (.native .mqttSetConnectedCallback
      { registeringHost with registerSPForwardByName := fun _ _ => 6 } [1, 0]),
      .call .processPendingCallbacks] ++
    List.replicate 9 (.run .game) ++ .ret .game :: List.replicate 6 (.run .game)

/-- The first event goes to the forward stored last; there is none for the second. -/
def reroutedSights : List EventSight :=
  [.enrolled 1, .subscribed 1 .connected (some 5), .opened,
    .posted ⟨1, .connected, [.cell 1]⟩, .posted ⟨1, .connectionLost, [.cell 1, .string []]⟩,
    .subscribed 1 .connected (some 6), .delivered ⟨1, .connected, [.cell 1]⟩ 6,
    .dropped ⟨1, .connectionLost, [.cell 1, .string []]⟩]

theorem threads_refine_mailbox_rerouted : ∃ s : Threads .plain 1,
    Transition.run Threads.step .initial reroutedConnected = some s ∧
      ∃ box, Transition.run Box.step (.initial : EventBox) (reroutedSights.map Sight.act) =
          some box ∧
        observed Box.step Box.shows (.initial : EventBox) (reroutedSights.map Sight.act) =
          reroutedSights ∧
        s.Represents box := by
  have ends : (Transition.run Threads.step (.initial : Threads .plain 1)
      reroutedConnected).isSome = true := by decide +kernel
  have shown : observed Threads.step Threads.shows (.initial : Threads .plain 1)
      reroutedConnected = reroutedSights := by decide +kernel
  obtain ⟨s, ran⟩ := Option.isSome_iff_exists.mp ends
  exact ⟨s, ran, shown ▸ threads_refine_mailbox ran⟩

/-- **First in, first out, and at most once**, with every lock and unlock a step of its own: the
events delivered, followed by those that are waiting, are among those handed to the queue, in that
order. -/
theorem delivered_in_order {P : PahoOptions} {n : Nat} {actions : List (ThreadAction n)}
    {s : Threads P n} (ran : Transition.run Threads.step .initial actions = some s) :
    let sights := observed Threads.step Threads.shows (.initial : Threads P n) actions
    (deliveries sights ++ (flight (s.stack .game) ++
      s.shared.globals.queue.pendingCallbacks).map CallbackEvent.letter).Sublist
        (posts sights) := by
  obtain ⟨acts, box, matched, same, _, represents⟩ :=
    Threads.run_represents Threads.regular_initial Threads.represents_initial ran
  have sublist := deliveries_sublist matched
  rwa [same, represents.pending] at sublist

def deliveredConnected : List (ThreadAction 1) :=
  queuedConnected ++ .call .processPendingCallbacks :: List.replicate 9 (.run .game)

theorem delivered_in_order_delivered : ∃ s : Threads .plain 1,
    Transition.run Threads.step .initial deliveredConnected = some s ∧
      [(⟨1, .connected, [.cell 1]⟩ : EventLetter)].Sublist (posts (observed Threads.step
        Threads.shows (.initial : Threads .plain 1) deliveredConnected)) := by
  have ends : (Transition.run Threads.step (.initial : Threads .plain 1)
      deliveredConnected).isSome = true := by decide +kernel
  have delivered : deliveries (observed Threads.step Threads.shows (.initial : Threads .plain 1)
      deliveredConnected) = [⟨1, .connected, [.cell 1]⟩] := by decide +kernel
  obtain ⟨s, ran⟩ := Option.isSome_iff_exists.mp ends
  have sublist := delivered_in_order ran
  simp only [delivered] at sublist
  exact ⟨s, ran, (List.sublist_append_left _ _).trans sublist⟩

/-- **A handle that is gone stays gone, and silent**: once the client of a handle has been
destroyed, no interleaving delivers an event of that handle, whoever gave it to the queue and
whenever. -/
theorem removed_handles_silent {P : PahoOptions} {n : Nat} {before after : List (ThreadAction n)}
    {s s' : Threads P n} {handle : Int}
    (ran : Transition.run Threads.step .initial before = some s)
    (issued : 1 ≤ handle ∧ handle < s.shared.globals.clients.nextHandle)
    (removed : s.shared.globals.clients.getClient handle = none)
    (later : Transition.run Threads.step s after = some s') :
    s'.shared.globals.clients.getClient handle = none ∧
      ∀ letter ∈ deliveries (observed Threads.step Threads.shows s after),
        letter.sender ≠ handle := by
  obtain ⟨_, box, _, _, regular, represents⟩ :=
    Threads.run_represents Threads.regular_initial Threads.represents_initial ran
  have gone : Gone box handle := by
    refine ⟨?_, (represents.former handle).mpr issued⟩
    rw [represents.routes, MqttClientMgr.routes, removed, Option.map_none]
  obtain ⟨acts, last, matched, same, _, represents'⟩ :=
    Threads.run_represents regular represents later
  refine ⟨?_, same ▸ gone.silent matched⟩
  have left := (gone.run matched).1
  rwa [represents'.routes, MqttClientMgr.routes, Option.map_eq_none_iff] at left

/-- The plugin destroys the client while an event for it is queued. -/
def destroyedQueued : List (ThreadAction 1) :=
  queuedConnected ++ .call (.native .mqttDestroy registeringHost [1]) ::
    List.replicate 4 (.run .game) ++ [.ret .game]

theorem removed_handles_silent_queued : ∃ s s' : Threads .plain 1,
    Transition.run Threads.step .initial destroyedQueued = some s ∧
      s.shared.globals.queue.pendingCallbacks.map (·.handle) = [1] ∧
      Transition.run Threads.step s
        (.call .processPendingCallbacks :: List.replicate 10 (.run .game)) = some s' ∧
      s'.shared.globals.queue.pendingCallbacks = [] ∧
      s'.shared.globals.clients.getClient 1 = none ∧
      ∀ letter ∈ deliveries (observed Threads.step Threads.shows s
        (.call .processPendingCallbacks :: List.replicate 10 (.run .game))),
        letter.sender ≠ 1 := by
  have first : (Transition.run Threads.step (.initial : Threads .plain 1) destroyedQueued).map
      (fun s => (s.shared.globals.queue.pendingCallbacks.map (·.handle),
        s.shared.globals.clients.nextHandle, s.shared.globals.clients.getClient 1)) =
      some ([1], 2, none) := by decide +kernel
  have second : (Transition.run Threads.step (.initial : Threads .plain 1) (destroyedQueued ++
      .call .processPendingCallbacks :: List.replicate 10 (.run .game))).map
      (fun s => s.shared.globals.queue.pendingCallbacks) = some [] := by decide +kernel
  obtain ⟨s, ran, first⟩ := Option.map_eq_some_iff.mp first
  obtain ⟨s', whole, empty⟩ := Option.map_eq_some_iff.mp second
  obtain ⟨between, earlier, later⟩ := Transition.run_append.mp whole
  cases ran.symm.trans earlier
  simp only [Prod.mk.injEq] at first
  rcases first with ⟨queued, next, removed⟩
  refine ⟨s, s', ran, queued, later, empty, removed_handles_silent ran ?_ removed later⟩
  rw [next]
  decide

end AmxxMqtt
