import AmxxMqtt.ForwardHistory

/-!
# Who owns the forwards

In a run in which no call stores a forward over another one through a setter that does not
unregister it, the forwards registered and not yet unregistered are at every moment exactly
those in the slots of the clients, each in one slot.  The first call that does so leaves a
forward that no client holds and that nothing will unregister.
-/

namespace AmxxMqtt

variable {P : PahoOptions}

/-- No forward is leaked, released twice or dangling. -/
structure World.OwnsForwards (w : World P) : Prop where
  /-- no two slots hold the same id -/
  disjoint : w.heldIds.Nodup
  /-- the ids held are those registered and not unregistered since -/
  registered : ∀ id, id ∈ w.heldIds ↔ (Names.live (forwardLog w.history) id).isSome
  /-- every id unregistered was registered at that moment -/
  released : Names.Disciplined (forwardLog w.history)
  /-- while control is outside the module, only live clients hold ids -/
  settled : w.outside = true →
    w.heldIds = (Table.values w.globals.clients.clients).flatMap AmxxMqttClient.destructor

/-- What every step keeps, whatever it overwrites. -/
def World.Accounted (w : World P) : Prop :=
  ClientsValid w ∧ World.StackValid w.stack ∧ ∃ leaked, ForwardsValid w leaked

theorem World.initial_accounted : (World.initial : World P).Accounted :=
  ⟨ClientsValid.initial, List.Pairwise.nil, [], ForwardsValid.initial⟩

theorem World.step_accounted {w t : World P} {action : Action} (stepped : w.step action = some t)
    (accounted : w.Accounted) : t.Accounted := by
  rcases accounted with ⟨clients, stack, leaked, forwards⟩
  obtain ⟨more, later, _⟩ := forwards.step stepped clients
  exact ⟨clients.step stepped, step_stackValid stepped stack, more ++ leaked, later⟩

/-- While control is outside the module no destructor is pending. -/
theorem pendingDestructs_eq_nil {w : World P} (stack : World.StackValid w.stack)
    (outside : w.outside = true) : pendingDestructs w.stack = [] := by
  refine List.filterMap_eq_nil_iff.mpr fun op member => ?_
  have calls := stack.calls_of_outside outside op member
  cases op <;> first | rfl | cases calls

/-- The forwards are owned exactly when nothing was leaked. -/
theorem ForwardsValid.ownsForwards_iff {w : World P} {leaked : List Int}
    (valid : ForwardsValid w leaked) (stack : World.StackValid w.stack) :
    w.OwnsForwards ↔ leaked = [] := by
  have registered : ∀ id, (Names.live (forwardLog w.history) id).isSome ↔
      id ∈ w.heldIds ∨ id ∈ leaked := by
    intro id
    rw [valid.live, AList.lookup_isSome, AList.mem_keys, valid.owned.mem_iff, List.mem_append]
  constructor
  · intro owns
    refine List.eq_nil_iff_forall_not_mem.mpr fun id member => ?_
    have held := (owns.registered id).mpr ((registered id).mpr (.inr member))
    have distinct := valid.owned.nodup_iff.mp w.forwards.keys_nodup
    exact List.disjoint_of_nodup_append distinct held member
  · rintro rfl
    refine ⟨valid.heldIds_nodup, fun id => ?_, valid.disciplined, fun outside => ?_⟩
    · rw [registered, List.mem_nil_iff, or_false]
    · rw [World.heldIds, pendingDestructs_eq_nil stack outside, List.append_nil]

/-- **Forward ownership.**  Along a run the module owns its forwards in every state if and only
if no step overwrites one. -/
theorem ownsForwards_always_iff {actions : List Action} {w : World P}
    (ran : Transition.run World.step World.initial actions = some w) :
    Transition.Always World.step World.OwnsForwards (World.initial : World P) actions ↔
      Transition.Allowed World.step (fun w action => ¬ w.Overwrites action)
        (World.initial : World P) actions := by
  refine Transition.always_iff_allowed World.step_accounted ?_ ran World.initial_accounted
    ((ForwardsValid.initial.ownsForwards_iff List.Pairwise.nil).mpr rfl)
  intro w action t stepped accounted owns
  rcases accounted with ⟨clients, stack, leaked, forwards⟩
  obtain rfl := (forwards.ownsForwards_iff stack).mp owns
  obtain ⟨more, later, keeps⟩ := forwards.step stepped clients
  rw [List.append_nil] at later
  exact (later.ownsForwards_iff (World.step_stackValid stepped stack)).trans keeps

/-- Setting the connected callback of a client twice loses the first forward. -/
theorem connected_callback_leaks :
    ¬ ∀ (actions : List Action) (w : World .plain),
        Transition.run World.step World.initial actions = some w → w.OwnsForwards := by
  intro always
  have leaks : (Transition.run World.step (World.initial : World .plain)
      [.call (.native .mqttCreate .plain [0, 0]),
        .call (.native .mqttSetConnectedCallback (.registering 7) [1, 0]),
        .call (.native .mqttSetConnectedCallback (.registering 8) [1, 0])]).map
          (fun w => (w.heldIds, Names.live (forwardLog w.history) 7)) =
            some ([8], some [.cell]) := by decide +kernel
  obtain ⟨w, ran, state⟩ := Option.map_eq_some_iff.mp leaks
  obtain ⟨held, live⟩ := Prod.mk.inj state
  have owned := ((always _ w ran).registered 7).mpr (by rw [live]; rfl)
  rw [held] at owned
  exact absurd owned (by decide)

/-- Setting the message callback twice and destroying the client leaves nothing behind. -/
theorem ownsForwards_always_iff_message :
    ∃ w : World .plain, Transition.run World.step World.initial
        [.call (.native .mqttCreate .plain [0, 0]),
          .call (.native .mqttSetMessageCallback (.registering 7) [1, 0]),
          .call (.native .mqttSetMessageCallback (.registering 8) [1, 0]),
          .call (.native .mqttDestroy .plain [1]), .tick] = some w ∧
      w.forwards.keys = [] ∧
      (Transition.Always World.step World.OwnsForwards (World.initial : World .plain)
          [.call (.native .mqttCreate .plain [0, 0]),
            .call (.native .mqttSetMessageCallback (.registering 7) [1, 0]),
            .call (.native .mqttSetMessageCallback (.registering 8) [1, 0]),
            .call (.native .mqttDestroy .plain [1]), .tick] ↔
        Transition.Allowed World.step (fun w action => ¬ w.Overwrites action)
          (World.initial : World .plain)
          [.call (.native .mqttCreate .plain [0, 0]),
            .call (.native .mqttSetMessageCallback (.registering 7) [1, 0]),
            .call (.native .mqttSetMessageCallback (.registering 8) [1, 0]),
            .call (.native .mqttDestroy .plain [1]), .tick]) := by
  have empty : (Transition.run World.step (World.initial : World .plain)
      [.call (.native .mqttCreate .plain [0, 0]),
        .call (.native .mqttSetMessageCallback (.registering 7) [1, 0]),
        .call (.native .mqttSetMessageCallback (.registering 8) [1, 0]),
        .call (.native .mqttDestroy .plain [1]), .tick]).map (fun w => w.forwards.keys) =
          some [] := by decide +kernel
  obtain ⟨w, ran, keys⟩ := Option.map_eq_some_iff.mp empty
  exact ⟨w, ran, keys, ownsForwards_always_iff ran⟩

end AmxxMqtt
