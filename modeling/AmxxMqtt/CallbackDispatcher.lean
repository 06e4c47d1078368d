import AmxxMqtt.Natives

/-!
# `ExecuteCallback`

Delivery of one event on the game thread: the handle is resolved at that moment, and the forward
of the event's kind, if the client has one, is executed with the event's contents.
-/

namespace AmxxMqtt

/-- The forward `ExecuteCallback` passes to `MF_ExecuteForward`, and its arguments; a
`c_str()` argument is what the C string denotes. -/
def executeCallback (clients : MqttClientMgr) (event : CallbackEvent) :
    Option (Int × List ForwardArg) :=
  match clients.getClient event.handle with
  | none => none
  | some client =>
      match event.type with
      | .connected =>
          let id := client.onConnectedForwardId
          if id ≠ -1 then some (id, [.cell event.handle]) else none
      | .message =>
          let id := client.onMessageForwardId
          if id ≠ -1 then
            some (id, [.cell event.handle, .string (cString event.topic),
              .string (cString event.text)])
          else none
      | .connectionLost =>
          let id := client.onConnectionLostForwardId
          if id ≠ -1 then some (id, [.cell event.handle, .string (cString event.text)]) else none
      | .disconnected =>
          let id := client.onDisconnectForwardId
          if id ≠ -1 then some (id, [.cell event.handle, .cell event.reasonCode]) else none

/-- The arguments an event of each kind is delivered with. -/
def CallbackEvent.args (event : CallbackEvent) : List ForwardArg :=
  match event.type with
  | .connected => [.cell event.handle]
  | .message =>
      [.cell event.handle, .string (cString event.topic), .string (cString event.text)]
  | .connectionLost => [.cell event.handle, .string (cString event.text)]
  | .disconnected => [.cell event.handle, .cell event.reasonCode]

/-- A forward is executed exactly when the handle is live and its client has a forward of the
event's kind; it is that forward, with the event's arguments. -/
theorem executeCallback_eq_some_iff {clients : MqttClientMgr} {event : CallbackEvent} {id : Int}
    {args : List ForwardArg} :
    executeCallback clients event = some (id, args) ↔
      ∃ client, clients.getClient event.handle = some client ∧
        client.forwardId event.type = id ∧ id ≠ -1 ∧ args = event.args := by
  unfold executeCallback CallbackEvent.args
  cases clients.getClient event.handle with
  | none => simp only [reduceCtorEq, false_and, exists_false]
  | some client =>
      cases event.type <;> simp only [AmxxMqttClient.forwardId, Option.some.injEq,
        exists_eq_left', Option.ite_none_right_eq_some, Prod.mk.injEq] <;> grind

/-- An event is delivered with the argument kinds its callback is registered with. -/
theorem CallbackEvent.args_param (event : CallbackEvent) :
    event.args.map ForwardArg.param = event.type.signature := by
  rcases event with ⟨_ | _ | _ | _, handle, text, reasonCode, topic⟩ <;> rfl

theorem executeCallback_of_dead {clients : MqttClientMgr} {event : CallbackEvent}
    (dead : clients.getClient event.handle = none) : executeCallback clients event = none := by
  simp only [executeCallback, dead]

end AmxxMqtt
