import AmxxMqtt.MqttClient
import AmxxMqtt.Lib.Log
import AmxxMqtt.Lib.Table
import AmxxMqtt.Lib.Transition

/-!
# One client among its threads

Paho's threads run the client's callbacks statement by statement and in any interleaving, while
the game thread installs handlers, requests disconnects and at last destroys the client.  The
critical sections of the client's mutex, the stores of the flag and the calls of a handler are
single steps.

Of Paho the system has what its documentation promises: a request it accepted completes at most
once, and `MQTTAsync_destroy` returns when no callback is in progress.  Until then it may deliver
any callback, such as the failure of a request it cancels.
-/

namespace AmxxMqtt

/-! ## Activations -/

/-- What makes a thread run a body of the client: a callback, or a `disconnect` in which Paho
threw. -/
inductive Trigger where
  | paho (callback : PahoCallback)
  | disconnectThrew
  deriving DecidableEq, Repr

namespace Trigger

def body : Trigger → List Statement
  | .paho callback => callback.body
  -- the `catch` of `disconnect`
  | .disconnectThrew => notifyDisconnect

/-- The value the body stores in the connection flag, if it stores one. -/
def stored : Trigger → Option Bool
  | .paho callback => callback.stored
  | .disconnectThrew => none

/-- The handler the body copies. -/
def type : Trigger → CallbackType
  | .paho callback => callback.type
  | .disconnectThrew => .disconnected

theorem body_eq (trigger : Trigger) :
    trigger.body = trigger.stored.toList.map .storeConnected ++
      [.copyHandler trigger.type, .invokeHandler] := by
  cases trigger with
  | paho callback => exact callback.body_eq
  | disconnectThrew => rfl

end Trigger

/-- A thread inside a body: what it still has to run and the copy it holds. -/
structure Activation (H : Type) where
  trigger : Trigger
  remaining : List Statement
  copy : Option H := none

/-- What happens to a client; `id` tells activations apart. -/
inductive ClientEvent (H : Type) where
  | installed (type : CallbackType) (handler : Option H)
  | began (id : Nat) (trigger : Trigger)
  | stored (id : Nat) (value : Bool)
  | copied (id : Nat) (type : CallbackType) (found : Option H)
  | invoked (id : Nat) (handler : H)
  /-- `m_stopping = true` -/
  | stopped
  /-- the destructor has returned -/
  | destroyed
  deriving DecidableEq

/-- The handler an event invokes. -/
def ClientEvent.handler {H : Type} : ClientEvent H → Option H
  | .invoked _ handler => some handler
  | _ => none

/-- What a statement leaves in the history. -/
def Statement.event {H : Type} (id : Nat) (copy invoked : Option H) :
    Statement → Option (ClientEvent H)
  | .storeConnected value => some (.stored id value)
  | .copyHandler type => some (.copied id type copy)
  | .invokeHandler => invoked.map (.invoked id)

/-! ## The system -/

structure ClientSystem (H : Type) where
  client : MqttClient H
  /-- disconnect requests Paho has accepted and not completed -/
  pending : List Token
  running : AList fun _ : Nat => Activation H
  destroyed : Bool
  /-- newest first -/
  history : List (ClientEvent H)

inductive ClientAction (H : Type) where
  | setHandler (type : CallbackType) (handler : Option H)
  /-- `connect`, `subscribe`, `unsubscribe` or `publish`: passed on to Paho -/
  | request (threw : Option PahoException)
  /-- `disconnect`: Paho accepts the request with this token, or throws -/
  | disconnect (token : Token) (threw : Option PahoException)
  /-- Paho enters a callback -/
  | deliver (callback : PahoCallback)
  /-- an activation runs its next statement -/
  | advance (id : Nat)
  /-- the destructor's critical section -/
  | stop
  /-- `m_pClient.reset()` returns -/
  | destroy

namespace ClientSystem

variable {H : Type}

def initial : ClientSystem H := ⟨{}, [], ∅, false, []⟩

/-- The game thread is outside the client's methods and its destructor. -/
def idle (s : ClientSystem H) : Bool :=
  !s.client.stopping &&
    (Table.values s.running).all fun activation => activation.trigger ≠ .disconnectThrew

/-- A thread enters a body. -/
def enter (trigger : Trigger) (s : ClientSystem H) : ClientSystem H :=
  { s with
    running := s.running.insert s.history.length ⟨trigger, trigger.body, none⟩
    history := .began s.history.length trigger :: s.history }

/-- An activation runs this statement, with `rest` to follow. -/
def execute (id : Nat) (activation : Activation H) (statement : Statement)
    (rest : List Statement) (s : ClientSystem H) : ClientSystem H :=
  let (client, copy, invoked) := s.client.execute activation.copy statement
  { s with
    client
    running :=
      if rest = [] then s.running.erase id
      else s.running.insert id { activation with remaining := rest, copy }
    history := (statement.event id copy invoked).toList ++ s.history }

def step (s : ClientSystem H) : ClientAction H → Option (ClientSystem H)
  | .setHandler type handler =>
      if s.idle then
        some { s with
          client := s.client.setHandler type handler
          history := .installed type handler :: s.history }
      else none
  | .request _ => if s.idle then some s else none
  | .disconnect token threw =>
      if s.idle then
        match threw with
        | some _ => some (s.enter .disconnectThrew)
        | none => if token ∈ s.pending then none else some { s with pending := token :: s.pending }
      else none
  | .deliver callback =>
      if s.destroyed then none
      else match callback.completes with
        | none => some (s.enter (.paho callback))
        | some token =>
            if token ∈ s.pending then
              some ({ s with pending := s.pending.erase token }.enter (.paho callback))
            else none
  | .advance id =>
      match s.running.lookup id with
      | some ⟨trigger, statement :: rest, copy⟩ =>
          some (s.execute id ⟨trigger, statement :: rest, copy⟩ statement rest)
      | _ => none
  | .stop =>
      if s.idle then
        some { s with
          client := { s.client with stopping := true }, history := .stopped :: s.history }
      else none
  | .destroy =>
      if s.client.stopping ∧ s.running.keys = [] ∧ s.destroyed = false then
        some { s with destroyed := true, history := .destroyed :: s.history }
      else none

/-- Every step the system can take. -/
inductive Steps : ClientSystem H → ClientAction H → ClientSystem H → Prop
  | setHandler {s : ClientSystem H} {type : CallbackType} {handler : Option H}
      (idle : s.idle = true) :
      Steps s (.setHandler type handler) { s with
        client := s.client.setHandler type handler
        history := .installed type handler :: s.history }
  | request {s : ClientSystem H} {threw : Option PahoException} (idle : s.idle = true) :
      Steps s (.request threw) s
  | accepted {s : ClientSystem H} {token : Token} (idle : s.idle = true)
      (fresh : token ∉ s.pending) :
      Steps s (.disconnect token none) { s with pending := token :: s.pending }
  | threw {s : ClientSystem H} {token : Token} {exception : PahoException}
      (idle : s.idle = true) :
      Steps s (.disconnect token (some exception)) (s.enter .disconnectThrew)
  | deliver {s : ClientSystem H} {callback : PahoCallback} {pending : List Token}
      (alive : s.destroyed = false) :
      Steps s (.deliver callback) ({ s with pending }.enter (.paho callback))
  | advance {s : ClientSystem H} {id : Nat} {trigger : Trigger} {statement : Statement}
      {rest : List Statement} {copy : Option H}
      (here : s.running.lookup id = some ⟨trigger, statement :: rest, copy⟩) :
      Steps s (.advance id) (s.execute id ⟨trigger, statement :: rest, copy⟩ statement rest)
  | stop {s : ClientSystem H} (idle : s.idle = true) :
      Steps s .stop { s with
        client := { s.client with stopping := true }, history := .stopped :: s.history }
  | destroy {s : ClientSystem H} (stopping : s.client.stopping = true)
      (finished : s.running.keys = []) (once : s.destroyed = false) :
      Steps s .destroy { s with destroyed := true, history := .destroyed :: s.history }

theorem steps {s t : ClientSystem H} {action : ClientAction H} (taken : s.step action = some t) :
    Steps s action t := by
  cases action with
  | setHandler type handler =>
      simp only [step] at taken
      split at taken
      · cases taken
        exact .setHandler ‹_›
      · cases taken
  | request threw =>
      simp only [step] at taken
      split at taken
      · cases taken
        exact .request ‹_›
      · cases taken
  | disconnect token threw =>
      simp only [step] at taken
      split at taken
      · cases threw with
        | some exception =>
            cases taken
            exact .threw ‹_›
        | none =>
            simp only at taken
            split at taken
            · cases taken
            · cases taken
              exact .accepted ‹_› ‹_›
      · cases taken
  | deliver callback =>
      simp only [step] at taken
      split at taken
      · cases taken
      · rename_i alive
        have alive : s.destroyed = false := Bool.eq_false_iff.mpr alive
        split at taken
        · cases taken
          exact .deliver alive
        · split at taken
          · cases taken
            exact .deliver alive
          · cases taken
  | advance id =>
      simp only [step] at taken
      split at taken
      · cases taken
        exact .advance ‹_›
      · cases taken
  | stop =>
      simp only [step] at taken
      split at taken
      · cases taken
        exact .stop ‹_›
      · cases taken
  | destroy =>
      simp only [step] at taken
      split at taken
      · rename_i condition
        rcases condition with ⟨stopping, finished, once⟩
        cases taken
        exact .destroy stopping finished once
      · cases taken

/-! ## A body without interruption -/

/-- An activation that runs all its statements with no other step between them does what the body
does in one go. -/
theorem run_uninterrupted {s : ClientSystem H} {id : Nat} {trigger : Trigger}
    {statements : List Statement} {copy : Option H}
    (here : s.running.lookup id = some ⟨trigger, statements, copy⟩) :
    ∃ t newer, Transition.run step s (List.replicate statements.length (.advance id)) = some t ∧
      t.client = (s.client.executeAll copy statements).1 ∧ t.history = newer ++ s.history ∧
      (newer.filterMap ClientEvent.handler).reverse =
        (s.client.executeAll copy statements).2 := by
  induction statements generalizing s copy with
  | nil => exact ⟨s, [], rfl, rfl, rfl, rfl⟩
  | cons statement rest ih =>
      rcases same : s.client.execute copy statement with ⟨client, copied, invoked⟩
      have first : s.step (.advance id) = some { s with
          client
          running := if rest = [] then s.running.erase id
            else s.running.insert id ⟨trigger, rest, copied⟩
          history := (statement.event id copied invoked).toList ++ s.history } := by
        simp only [step, here, execute, same]
      have handlers : (statement.event id copied invoked).toList.filterMap ClientEvent.handler =
          invoked.toList := by
        cases statement with
        | invokeHandler => cases invoked <;> rfl
        | storeConnected value =>
            cases same
            rfl
        | copyHandler type =>
            cases same
            rfl
      simp only [MqttClient.executeAll, same]
      cases rest with
      | nil =>
          refine ⟨_, _, Transition.run_singleton.mpr first, rfl, rfl, ?_⟩
          rw [handlers]
          cases invoked <;> rfl
      | cons second rest =>
          simp only [reduceCtorEq, ↓reduceIte] at first
          obtain ⟨t, newer, ran, after, history, calls⟩ := @ih { s with
            client
            running := s.running.insert id ⟨trigger, second :: rest, copied⟩
            history := (statement.event id copied invoked).toList ++ s.history } copied
              (AList.lookup_insert _)
          refine ⟨t, newer ++ (statement.event id copied invoked).toList,
            Transition.run_cons.mpr ⟨_, first, ran⟩, after, ?_, ?_⟩
          · rw [history, List.append_assoc]
          · rw [List.filterMap_append, handlers, List.reverse_append, calls]
            cases invoked <;> rfl

end ClientSystem

end AmxxMqtt
