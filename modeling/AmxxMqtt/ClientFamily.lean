import AmxxMqtt.ActivationHistory
import AmxxMqtt.Lib.Family
import AmxxMqtt.Lib.Refinement

/-!
# The clients of the module, side by side

`ClientSystem` is one client among its threads, and `Clients` is one for every object there ever
is.  Of Paho less is asked than there: `anyStep` lets it complete any disconnect, whether or not it
has accepted it.  What holds in `ClientSystem.Valid` does not depend on that promise.
-/

namespace AmxxMqtt

open Refinement

variable {H : Type}

namespace ClientSystem

/-- Paho may complete a disconnect that it has not accepted. -/
def anyStep (s : ClientSystem H) : ClientAction H → Option (ClientSystem H)
  | .deliver callback =>
      { s with pending := callback.completes.toList ++ s.pending }.step (.deliver callback)
  | action => s.step action

/-- What a step adds to the history, oldest first. -/
def shows (s : ClientSystem H) : ClientAction H → List (ClientEvent H)
  | .setHandler type handler => [.installed type handler]
  | .request _ | .disconnect _ none => []
  | .disconnect _ (some _) => [.began s.history.length .disconnectThrew]
  | .deliver callback => [.began s.history.length (.paho callback)]
  | .advance id =>
      match s.running.lookup id with
      | some ⟨_, statement :: _, copy⟩ =>
          let (_, copy, invoked) := s.client.execute copy statement
          (statement.event id copy invoked).toList
      | _ => []
  | .stop => [.stopped]
  | .destroy => [.destroyed]

variable {s t : ClientSystem H} {action : ClientAction H}

theorem Valid.setPending (valid : s.Valid) (pending : List Token) :
    ({ s with pending } : ClientSystem H).Valid :=
  ⟨valid.flag, valid.stopping, valid.handlers, valid.destroyed, valid.finished, valid.fresh,
    valid.running, valid.courses, valid.explained⟩

/-- But for the requests pending, the step is one of `ClientSystem.step`. -/
theorem anyStep_cases (taken : s.anyStep action = some t) :
    ∃ pending, ({ s with pending } : ClientSystem H).step action = some t := by
  cases action with
  | deliver callback => exact ⟨_, taken⟩
  | _ => exact ⟨s.pending, taken⟩

theorem Valid.anyStep (taken : s.anyStep action = some t) (valid : s.Valid) : t.Valid := by
  obtain ⟨pending, stepped⟩ := anyStep_cases taken
  exact (valid.setPending pending).step stepped

theorem deliver_eq (alive : s.destroyed = false) (callback : PahoCallback) :
    ∃ pending, s.anyStep (.deliver callback) =
      some ({ s with pending }.enter (.paho callback)) := by
  cases completes : callback.completes with
  | none =>
      refine ⟨s.pending, ?_⟩
      simp [ClientSystem.anyStep, step, alive, completes]
  | some token =>
      refine ⟨(token :: s.pending).erase token, ?_⟩
      simp [ClientSystem.anyStep, step, alive, completes]

section Advance

variable {id : Nat} {trigger : Trigger} {statement : Statement} {rest : List Statement}
  {copy : Option H}

theorem anyStep_advance (here : s.running.lookup id = some ⟨trigger, statement :: rest, copy⟩) :
    s.anyStep (.advance id) =
      some (s.execute id ⟨trigger, statement :: rest, copy⟩ statement rest) := by
  simp only [ClientSystem.anyStep, step, here]

theorem shows_advance (here : s.running.lookup id = some ⟨trigger, statement :: rest, copy⟩) :
    s.shows (.advance id) = (statement.event id (s.client.execute copy statement).2.1
      (s.client.execute copy statement).2.2).toList := by
  simp only [shows, here]

theorem lookup_execute (id other : Nat) (activation : Activation H) (statement : Statement)
    (rest : List Statement) (s : ClientSystem H) :
    (s.execute id activation statement rest).running.lookup other =
      if other = id then
        if rest = [] then none
        else some ⟨activation.trigger, rest, (s.client.execute activation.copy statement).2.1⟩
      else s.running.lookup other := by
  simp only [execute]
  split
  · rw [Table.lookup_erase_iff]
  · rw [Table.lookup_insert_iff]

end Advance

theorem history_step (taken : s.step action = some t) :
    t.history = (s.shows action).reverse ++ s.history := by
  cases steps taken with
  | @advance id trigger statement rest copy here =>
      simp only [shows, here, execute]
      cases statement.event id (s.client.execute copy statement).2.1
        (s.client.execute copy statement).2.2 <;> rfl
  | setHandler | request | accepted | threw | deliver | stop | destroy => rfl

theorem history_anyStep (taken : s.anyStep action = some t) :
    t.history = (s.shows action).reverse ++ s.history := by
  obtain ⟨pending, stepped⟩ := anyStep_cases taken
  have history := history_step stepped
  cases action <;> exact history

/-- The history is what the steps have shown. -/
theorem history_run {actions : List (ClientAction H)}
    (ran : Transition.run ClientSystem.anyStep s actions = some t) :
    t.history = (observed ClientSystem.anyStep shows s actions).reverse ++ s.history := by
  induction actions generalizing s with
  | nil =>
      cases ran
      rfl
  | cons action actions ih =>
      obtain ⟨u, taken, rest⟩ := Transition.run_cons.mp ran
      rw [ih rest, history_anyStep taken, observed_cons taken, List.reverse_append,
        List.append_assoc]

end ClientSystem

/-! ## The family -/

/-- What can be seen of the clients; a handler carries the handle of its client. -/
inductive ClientSight where
  | installed (object : ObjectId) (type : CallbackType) (handler : Option BoundHandler)
  | began (object : ObjectId) (trigger : Trigger)
  | stored (object : ObjectId) (value : Bool)
  | copied (object : ObjectId) (type : CallbackType) (found : Option BoundHandler)
  | invoked (handler : BoundHandler)
  | stopped (object : ObjectId)
  | destroyed (object : ObjectId)
  deriving DecidableEq

def ClientEvent.sight (object : ObjectId) : ClientEvent BoundHandler → ClientSight
  | .installed type handler => .installed object type handler
  | .began _ trigger => .began object trigger
  | .stored _ value => .stored object value
  | .copied _ type found => .copied object type found
  | .invoked _ handler => .invoked handler
  | .stopped => .stopped object
  | .destroyed => .destroyed object

/-- A system for each object. -/
abbrev Clients := ObjectId → ClientSystem BoundHandler

namespace Clients

def initial : Clients := fun _ => .initial

def step : Clients → ObjectId × ClientAction BoundHandler → Option Clients :=
  Family.step ClientSystem.anyStep

def shows (f : Clients) (act : ObjectId × ClientAction BoundHandler) : List ClientSight :=
  ((f act.1).shows act.2).map (ClientEvent.sight act.1)

/-- A member takes a step. -/
theorem step_of_anyStep {f : Clients} {object : ObjectId} {action : ClientAction BoundHandler}
    {after : ClientSystem BoundHandler} (taken : (f object).anyStep action = some after) :
    f.step (object, action) = some (Function.update f object after) :=
  Family.step_eq_some.mpr ⟨after, taken, rfl⟩

end Clients

end AmxxMqtt
