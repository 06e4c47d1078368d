import AmxxMqtt.QueueHistory
import AmxxMqtt.ForwardOwnership

/-!
# Delivery safety

Whatever happened between the moment a Paho worker offered an event and the moment the game
thread executes a forward for it, the forward is one the plugin set for that kind of event on the
very client that produced it.  The invariants of the queue, the clients, the slots and the
forwards meet here.
-/

namespace AmxxMqtt

variable {P : PahoOptions}

/-- Everything every step keeps. -/
structure World.Coherent (w : World P) : Prop where
  delivering : w.Delivering
  slots : SlotsValid w
  accounted : w.Accounted

namespace World.Coherent

variable {w t : World P}

theorem initial : (World.initial : World P).Coherent :=
  ⟨World.initial_delivering, SlotsValid.initial, World.initial_accounted⟩

theorem step {action : Action} (coherent : w.Coherent) (stepped : w.step action = some t) :
    t.Coherent :=
  ⟨World.step_delivering stepped coherent.delivering,
    coherent.slots.step stepped coherent.accounted.1,
    World.step_accounted stepped coherent.accounted⟩

theorem run {actions : List Action} (coherent : w.Coherent)
    (ran : Transition.run World.step w actions = some t) : t.Coherent :=
  Transition.run_invariant (fun _ stepped coherent => coherent.step stepped) ran
    (fun _ _ => True.intro) coherent

theorem of_run {actions : List Action}
    (ran : Transition.run World.step World.initial actions = some w) : w.Coherent :=
  initial.run ran

end World.Coherent

/-- **Delivery safety.**  When a step executes a forward for an event: the event's handle is live
under the client that produced it, the only client ever made under that handle; the event was
accepted since the dispatcher was last stopped; and the forward is the one most recently stored
on that client for that kind of event, still registered, for the argument kinds it gets. -/
theorem delivery_safe {actions : List Action} {w t : World P} {action : Action} {offer : Offer}
    {id : Int} {args : List ForwardArg}
    (ran : Transition.run World.step World.initial actions = some w)
    (stepped : w.step action = some t)
    (executed : t.history = .executed offer id args :: w.history) :
    (∃ client, w.globals.clients.getClient offer.event.handle = some client ∧
      client.forwardId offer.event.type = id ∧
      ∀ object, offer.source = some object → client.object = object ∧
        Names.live (handleLog w.history) offer.event.handle = some object ∧
        ∀ other, .issued offer.event.handle other ∈ handleLog w.history → other = object) ∧
    offer ∈ Gate.acceptedSince (gateLog w.history) ∧
    lastStored w.history offer.event.handle offer.event.type = some id ∧
    args = offer.event.args ∧
    w.forwards.lookup id = some (args.map ForwardArg.param) := by
  have coherent := World.Coherent.of_run ran
  rcases coherent with ⟨⟨queue, flight⟩, slots, clients, stack, leaked, forwards⟩
  obtain ⟨taken, client, live, stored, set, rfl⟩ := World.executed_inv flight stepped executed
  refine ⟨⟨client, live, stored, fun object source => ?_⟩, ?_, ?_, rfl, ?_⟩
  · have produced := clients.sources offer ?_ object source
    · have same := Names.identity_unique clients.tracks.distinct
        (clients.tracks.issued_of_getClient live) produced
      refine ⟨same, ?_, fun other issued =>
        Names.identity_unique clients.tracks.distinct issued produced⟩
      rw [← clients.tracks.live, live, Option.map_some, same]
    · exact queue.trace.taken_sublist.subset (Gate.takenSince_subset _ taken)
  · exact queue.trace.takenSince_of_accepted.subset taken
  · have slot := slots.stored offer.event.type live
    rw [stored] at slot
    cases last : lastStored w.history offer.event.handle offer.event.type with
    | none =>
        rw [last] at slot
        exact absurd slot set
    | some newest =>
        rw [last] at slot
        exact congrArg some slot.symm
  · rw [CallbackEvent.args_param, ← stored]
    exact forwards.kinds live (stored ▸ set)

/-- A client is made, its connected callback set, the connection comes up, and a frame later the
forward is executed. -/
theorem delivery_safe_connected :
    ∃ (w t : World .plain) (offer : Offer),
      Transition.run World.step World.initial
        [.call .startCallbackDispatcher, .tick, .call (.native .mqttCreate .plain [0, 0]),
          .call (.native .mqttSetConnectedCallback (.registering 7) [1, 0]),
          .callback 3 1 0 (.connected []), .call .processPendingCallbacks, .tick, .tick] = some w ∧
      w.step .tick = some t ∧ t.history = .executed offer 7 [.cell 1] :: w.history ∧
      offer ∈ Gate.acceptedSince (gateLog w.history) := by
  let offer : Offer := ⟨3, .worker 3, some 0, .connectedCallbackDispatcher 1⟩
  have state : (Transition.run World.step (World.initial : World .plain)
      [.call .startCallbackDispatcher, .tick, .call (.native .mqttCreate .plain [0, 0]),
        .call (.native .mqttSetConnectedCallback (.registering 7) [1, 0]),
        .callback 3 1 0 (.connected []), .call .processPendingCallbacks, .tick, .tick]).map
          (fun w => (w.stack, executeCallback w.globals.clients offer.event)) =
            some ([.executeCallback offer.event offer, .drain 0], some (7, [.cell 1])) := by
    decide +kernel
  obtain ⟨w, ran, state⟩ := Option.map_eq_some_iff.mp state
  obtain ⟨top, found⟩ := Prod.mk.inj state
  have stepped : w.step .tick = some { w with
      stack := [.foreign, .drain 0], history := .executed offer 7 [.cell 1] :: w.history } := by
    simp only [World.step, World.tick, top, found]
  exact ⟨w, _, offer, ran, stepped, rfl, (delivery_safe ran stepped rfl).2.1⟩

end AmxxMqtt
