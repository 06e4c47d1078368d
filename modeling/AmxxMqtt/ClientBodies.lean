import AmxxMqtt.ClientFamily
import AmxxMqtt.Stopping

/-!
# The bodies that are running

What a thread has on its stack of a client's callback, or of the `catch` of its `disconnect`, is
what an activation of `ClientSystem` still has to run.  `Bodies` gives every thread the activation
it is in, and every activation its thread.
-/

namespace AmxxMqtt

/-! ## Stacks -/

/-- The statement is one of a body's. -/
def ThreadOp.inBody : ThreadOp → Bool
  | .storeConnected _ _ | .callHandler _ _ _ | .copyHandler _ _ _ | .invoke _ _ => true
  | _ => false

/-- No body has begun.  The `catch` of a disconnect waits for the request to throw. -/
inductive Inert : List ThreadOp → Prop
  | nil : Inert []
  | cons {op : ThreadOp} {rest : List ThreadOp} (plain : op.inBody = false) (inert : Inert rest) :
      Inert (op :: rest)
  | refused {object : ObjectId} {notification : Notification} {rest : List ThreadOp}
      (inert : Inert rest) :
      Inert (.paho object .disconnect :: .callHandler object .disconnected notification :: rest)

theorem Inert.append {statements rest : List ThreadOp}
    (plain : ∀ op ∈ statements, op.inBody = false) (inert : Inert rest) :
    Inert (statements ++ rest) := by
  induction statements with
  | nil => exact inert
  | cons op statements ih =>
      obtain ⟨first, later⟩ := List.forall_mem_cons.mp plain
      exact .cons first (ih later)

theorem Inert.tail {op : ThreadOp} {rest : List ThreadOp} (inert : Inert (op :: rest))
    (inside : ∀ object, op ≠ .paho object .disconnect) : Inert rest := by
  cases inert with
  | cons plain inert => exact inert
  | refused => exact absurd rfl (inside _)

theorem Inert.top {op : ThreadOp} {rest : List ThreadOp} (inert : Inert (op :: rest)) :
    op.inBody = false := by
  cases inert with
  | cons plain => exact plain
  | refused => rfl

/-- A statement outside the bodies leads to none inside. -/
theorem inBody_exec {P : PahoOptions} {shared shared' : Shared P} {op : ThreadOp}
    {statements : List ThreadOp} (plain : op.inBody = false)
    (executed : op.exec shared = some (shared', statements)) :
    ∀ next ∈ statements, next.inBody = false := by
  cases op with
  | foreign | paho | lock | unlock => cases executed
  | storeConnected | callHandler | copyHandler | invoke => cases plain
  | drain remaining => cases remaining <;> cases executed <;> simp [ThreadOp.inBody]
  | takeFront | executeCallback | makeIndex | emplace =>
      simp only [ThreadOp.exec] at executed
      split at executed <;> cases executed <;> simp [ThreadOp.inBody]
  | buildOptions =>
      simp only [ThreadOp.exec] at executed
      split at executed
      · split at executed <;> cases executed <;> simp [ThreadOp.inBody]
      · cases executed
        simp
  | resetClients =>
      cases executed
      intro next member
      obtain ⟨client, _, rfl⟩ := List.mem_map.mp member
      rfl
  | _ =>
      cases executed
      simp [ThreadOp.guarded, ThreadOp.inBody]

theorem inBody_body (call : GameCall) :
    ∀ op ∈ call.body.map GameOp.statement, op.inBody = false := by
  cases call <;> simp [GameCall.body, GameOp.statement, ThreadOp.inBody]

theorem inBody_native {P : PahoOptions} {native : Native} {host : Host} {params : List Cell}
    {r : NativeReturn P} (other : native ≠ .mqttDisconnect) :
    ∀ op ∈ native.statements host params r, op.inBody = false := by
  intro op member
  by_cases options : native = .mqttCreateConnectOptions
  · subst options
    cases List.mem_singleton.mp member
    rfl
  rw [statements_eq options] at member
  rcases List.mem_append.mp member with effects | destroys
  · obtain ⟨effect, _, follows⟩ := List.mem_flatMap.mp effects
    cases effect with
    | constructed object =>
        simp only [Effect.statements, List.mem_cons, List.not_mem_nil, or_false] at follows
        rcases follows with rfl | rfl | rfl | rfl | rfl <;> rfl
    | request object asked =>
        rcases List.mem_cons.mp follows with rfl | later
        · rfl
        · unfold Native.afterRequest at later
          split at later
          · cases List.mem_singleton.mp later
            rfl
          · exact absurd rfl other
          · cases later
    | logError error =>
        cases List.mem_singleton.mp follows
        rfl
    | registered | unregistered | dispatched => cases follows
  · obtain ⟨client, _, rfl⟩ := List.mem_map.mp destroys
    rfl

/-- Of the statements of natives only a refused disconnect's `catch` is a body. -/
theorem Inert.native {P : PahoOptions} {native : Native} {host : Host} {params : List Cell}
    {g : Globals P} {r : NativeReturn P} (returns : Returns host params g native r)
    {stack : List ThreadOp} (inert : Inert stack) :
    Inert (native.statements host params r ++ stack) := by
  by_cases disconnects : native = .mqttDisconnect
  · subst disconnects
    cases returns with
    | requested kind | requestThrew kind | stored kind => cases kind
    | rejected => exact .cons rfl inert
    | disconnectSent _ _ accepted =>
        rw [Threads.statements_of_request (by simp)]
        simp only [Native.afterRequest, accepted]
        exact .cons rfl inert
    | disconnectQuiet _ _ threw | disconnectThrew _ _ threw =>
        rw [Threads.statements_of_request (by simp)]
        simp only [Native.afterRequest, threw]
        exact .refused inert
  · exact inert.append (inBody_native disconnects)

/-! ## Bodies -/

/-- What is on a stack of a body that has begun, what the activation has to run, and the copy it
holds. -/
inductive Body (object : ObjectId) (trigger : Trigger) :
    List ThreadOp → List Statement → Option BoundHandler → Prop
  | store {value : Bool} {notification : Notification} (stores : trigger.stored = some value) :
      Body object trigger
        [.storeConnected object value, .callHandler object trigger.type notification]
        [.storeConnected value, .copyHandler trigger.type, .invokeHandler] none
  | call {notification : Notification} :
      Body object trigger [.callHandler object trigger.type notification]
        [.copyHandler trigger.type, .invokeHandler] none
  | lock {notification : Notification} :
      Body object trigger
        [.lock (.handlerMutex object), .copyHandler object trigger.type notification]
        [.copyHandler trigger.type, .invokeHandler] none
  | copy {notification : Notification} :
      Body object trigger [.copyHandler object trigger.type notification]
        [.copyHandler trigger.type, .invokeHandler] none
  | found {notification : Notification} {handler : BoundHandler} :
      Body object trigger [.unlock (.handlerMutex object), .invoke handler notification]
        [.invokeHandler] (some handler)
  | invoke {notification : Notification} {handler : BoundHandler} :
      Body object trigger [.invoke handler notification] [.invokeHandler] (some handler)

/-- A callback that has just begun. -/
theorem PahoCallback.body_start (object : ObjectId) (callback : PahoCallback) :
    ∃ ops, callback.statements object = ops ++ [.callbackReturn object] ∧
      Body object (.paho callback) ops (Trigger.paho callback).body none := by
  rw [Trigger.body_eq]
  unfold PahoCallback.statements
  cases stores : callback.stored with
  | none =>
      have nothing : (Trigger.paho callback).stored = none := stores
      rw [nothing]
      exact ⟨_, rfl, .call⟩
  | some value =>
      have something : (Trigger.paho callback).stored = some value := stores
      rw [something]
      exact ⟨_, rfl, .store something⟩

/-- The activations of all clients. -/
abbrev Running := ObjectId × Nat → Option (Activation BoundHandler)

def Clients.running (f : Clients) : Running := fun x => (f x.1).running.lookup x.2

variable {n : Nat} {running : Running} {t : Thread n} {x : ObjectId × Nat}
  {stack : Thread n → List ThreadOp} {active : Thread n → Option (ObjectId × Nat)}
  {ops rest : List ThreadOp}

/-- The activation a thread is in, and the stack that stands for it. -/
inductive Doing (running : Running) (t : Thread n) :
    Option (ObjectId × Nat) → List ThreadOp → Prop
  | idle {rest : List ThreadOp} (inert : Inert rest) : Doing running t none rest
  | busy {x : ObjectId × Nat} {trigger : Trigger} {ops rest : List ThreadOp}
      {statements : List Statement} {copy : Option BoundHandler}
      (body : Body x.1 trigger ops statements copy)
      (here : running x = some ⟨trigger, statements, copy⟩)
      (refused : trigger = .disconnectThrew → t = .game)
      (returns : t ≠ .game → .callbackReturn x.1 ∈ rest)
      (inert : Inert rest) : Doing running t (some x) (ops ++ rest)

/-- Every thread has its activation, and every activation its thread. -/
structure Bodies (running : Running) (stack : Thread n → List ThreadOp)
    (active : Thread n → Option (ObjectId × Nat)) : Prop where
  doing : ∀ t, Doing running t (active t) (stack t)
  every : ∀ {x activation}, running x = some activation → ∃ t, active t = some x
  apart : ∀ {t u x}, active t = some x → active u = some x → t = u

theorem Doing.of_same {other : Running} {now : Option (ObjectId × Nat)}
    (doing : Doing running t now rest) (same : ∀ x, now = some x → other x = running x) :
    Doing other t now rest := by
  cases doing with
  | idle inert => exact .idle inert
  | busy body here refused returns inert =>
      exact .busy body ((same _ rfl).trans here) refused returns inert

/-- A thread goes on within the same activation, or without any. -/
theorem Bodies.restack (bodies : Bodies running stack active)
    (doing : Doing running t (active t) rest) :
    Bodies running (Function.update stack t rest) active where
  doing u := by
    by_cases this : u = t
    · subst this
      rw [Function.update_self]
      exact doing
    · rw [Function.update_of_ne this]
      exact bodies.doing u
  every := bodies.every
  apart := bodies.apart

/-- A thread begins an activation, goes on with it or ends it. -/
theorem Bodies.replace (bodies : Bodies running stack active)
    {now : Option (Activation BoundHandler)} (mine : ∀ u, active u = some x → u = t)
    (before : active t = none ∨ active t = some x)
    (doing : Doing (Function.update running x now) t (now.map fun _ => x) rest) :
    Bodies (Function.update running x now) (Function.update stack t rest)
      (Function.update active t (now.map fun _ => x)) where
  doing u := by
    by_cases this : u = t
    · subst this
      rw [Function.update_self, Function.update_self]
      exact doing
    · rw [Function.update_of_ne this, Function.update_of_ne this]
      refine (bodies.doing u).of_same fun y is => Function.update_of_ne ?_ ..
      rintro rfl
      exact this (mine u is)
  every {y activation} found := by
    by_cases this : y = x
    · subst this
      rw [Function.update_self] at found
      exact ⟨t, by rw [Function.update_self, found]; rfl⟩
    · rw [Function.update_of_ne this] at found
      obtain ⟨u, is⟩ := bodies.every found
      refine ⟨u, ?_⟩
      rw [Function.update_of_ne]
      · exact is
      · rintro rfl
        rcases before with none | some
        · cases none.symm.trans is
        · cases some.symm.trans is
          exact this rfl
  apart {u v y} first second := by
    have old {u : Thread n} (other : u ≠ t)
        (is : Function.update active t (now.map fun _ => x) u = some y) : active u = some y := by
      rwa [Function.update_of_ne other] at is
    have new {u : Thread n} (this : u = t)
        (is : Function.update active t (now.map fun _ => x) u = some y) : y = x := by
      subst this
      rw [Function.update_self] at is
      obtain ⟨_, _, rfl⟩ := Option.map_eq_some_iff.mp is
      rfl
    by_cases here : u = t <;> by_cases there : v = t
    · rw [here, there]
    · cases new here first
      exact absurd (mine v (old there second)) there
    · cases new there second
      exact absurd (mine u (old here first)) here
    · exact bodies.apart (old here first) (old there second)

/-- A thread that is not at its end, in an activation or in none. -/
inductive Top (running : Running) (t : Thread n) (op : ThreadOp) (rest : List ThreadOp) :
    Option (ObjectId × Nat) → Prop
  | idle (inert : Inert (op :: rest)) : Top running t op rest none
  | busy {x : ObjectId × Nat} {trigger : Trigger} {ops below : List ThreadOp}
      {statements : List Statement} {copy : Option BoundHandler} (under : rest = ops ++ below)
      (body : Body x.1 trigger (op :: ops) statements copy)
      (here : running x = some ⟨trigger, statements, copy⟩)
      (refused : trigger = .disconnectThrew → t = .game)
      (returns : t ≠ .game → .callbackReturn x.1 ∈ below)
      (inert : Inert below) : Top running t op rest (some x)

theorem Doing.top {now : Option (ObjectId × Nat)} {op : ThreadOp}
    (doing : Doing running t now (op :: rest)) : Top running t op rest now := by
  generalize whole : op :: rest = stack at doing
  cases doing with
  | idle inert => exact .idle (whole ▸ inert)
  | busy body here refused returns inert =>
      cases body with
      | store stores =>
          cases whole
          exact .busy rfl (.store stores) here refused returns inert
      | call =>
          cases whole
          exact .busy rfl .call here refused returns inert
      | lock =>
          cases whole
          exact .busy rfl .lock here refused returns inert
      | copy =>
          cases whole
          exact .busy rfl .copy here refused returns inert
      | found =>
          cases whole
          exact .busy rfl .found here refused returns inert
      | invoke =>
          cases whole
          exact .busy rfl .invoke here refused returns inert

/-- Where no statement of a body is on top, nor one at a mutex, the thread is in no activation. -/
theorem Doing.idle_of_top {now : Option (ObjectId × Nat)} {op : ThreadOp}
    (doing : Doing running t now (op :: rest)) (outside : op.inBody = false)
    (unlocked : ∀ mutex, op ≠ .lock mutex ∧ op ≠ .unlock mutex) :
    now = none ∧ Inert (op :: rest) := by
  cases doing.top with
  | idle inert => exact ⟨rfl, inert⟩
  | busy under body =>
      cases body with
      | store | call | copy | invoke => cases outside
      | lock => exact absurd rfl (unlocked _).1
      | found => exact absurd rfl (unlocked _).2

theorem Doing.idle_of_nil {now : Option (ObjectId × Nat)} (doing : Doing running t now []) :
    now = none := by
  generalize whole : [] = stack at doing
  cases doing with
  | idle => rfl
  | busy body => cases body <;> cases whole

end AmxxMqtt
