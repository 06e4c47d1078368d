import AmxxMqtt.FrameBudget

/-!
# What keeps a batch to its events

The loop of `ProcessPendingCallbacks` is bounded by a counter, and a callback of its batch can stop
the dispatcher, restart it and return with new events in the queue.  The counter then still has
turns left for them.  `Undisturbed` rules that out by what the callbacks and workers do.
-/

namespace AmxxMqtt

variable {P : PahoOptions}

namespace World

/-- The step hands events to the dispatcher. -/
def handsIn (w : World P) : Action → Bool
  | .callback _ handle object callback =>
      !(invoked w.globals.clients handle object callback).isEmpty
  | .dispatch _ _ => true
  | .call (.native native host args) =>
      match native.invoke host (frame args) w.globals with
      | .ok r => !(r.effects.filterMap Effect.dispatch).isEmpty
      | .error _ => false
  | .call _ | .ret | .tick => false

/-- The step is the first of another call. -/
def reenters (w : World P) : Action → Bool
  | .tick => w.stack.head? = some .processPendingCallbacks
  | .call _ | .ret | .callback _ _ _ _ | .dispatch _ _ => false

/-- What callbacks and workers must not do during a call: begin another one, or, after a stop
inside the call, hand events to the restarted dispatcher. -/
def Undisturbed (began w : World P) (action : Action) : Prop :=
  w.reenters action = false ∧
    ¬ (.closed ∈ gatesSince began w ∧ w.globals.queue.acceptingCallbacks = true ∧
      w.handsIn action = true)

instance (began w : World P) (action : Action) : Decidable (Undisturbed began w action) :=
  inferInstanceAs (Decidable (_ ∧ ¬ _))

variable {w₀ w t : World P} {rest : List GameOp} {action : Action}

/-- A step of the call that begins no other call goes on with the batch, or returns. -/
theorem Serving.unnested (serving : Serving w₀ rest w) (later : w₀.history <:+ w.history)
    (taken : w.during rest action = some t) (flat : w.reenters action = false) :
    Serving w₀ rest t ∨ t.stack = rest := by
  rcases serving with ⟨above, remaining, here, plain, counted⟩
  have stepped := steps_of_during taken
  have since (newer : List (Gate.Event Offer))
      (gates : gateLog t.history = newer ++ gateLog w.history) :
      Gate.taken (gatesSince w₀ t) = Gate.taken (gatesSince w₀ w) ++ Gate.taken newer := by
    rw [gatesSince_of_append later (step_history stepped) gates, Gate.taken_append]
  by_cases stops : action = .tick ∧ ∃ below, w.stack = .stopCallbackDispatcher :: below
  · rcases stops with ⟨rfl, below, top⟩
    cases above with
    | nil => cases here.symm.trans top
    | cons first above =>
        have same : below = above ++ .drain remaining :: rest :=
          (List.cons.inj (top.symm.trans here)).2
        cases World.steps stepped with
        | stop other =>
            cases other.symm.trans top
            refine .inl ⟨above, remaining, same,
              fun op member => plain op (List.mem_cons_of_mem _ member), ?_⟩
            have closed := since [.closed] rfl
            rw [closed, Gate.taken, Gate.taken, List.append_nil]
            exact counted
        | start other | resetClients other | destruct other | resetOptions other | hook other
        | unhook other | process other | drained other | take other | execute other
        | discard other => cases other.symm.trans top
  · have quiet : ∀ op below, action = .tick → w.stack = op :: below → op.interrupts = false := by
      intro op below ticks top
      cases op with
      | stopCallbackDispatcher => exact absurd ⟨ticks, below, top⟩ stops
      | processPendingCallbacks =>
          subst ticks
          simp only [reenters, top, List.head?_cons, decide_true, Bool.true_eq_false] at flat
      | _ => rfl
    cases turn stepped quiet here plain with
    | inside stack plain gates unclosed untaken =>
        refine .inl ⟨_, remaining, stack, plain, ?_⟩
        rw [since _ gates, untaken, List.append_nil]
        exact counted
    | @took left event offer less stack gates =>
        refine .inl ⟨[.executeCallback event offer], left, stack, by simp [GameOp.drains], ?_⟩
        have one := since [.taken offer] gates
        rw [one, List.length_append, ← counted, less]
        simp only [Gate.taken, List.nil_append, List.length_singleton]
        omega
    | returned stack => exact .inr stack

/-- An empty queue is filled only by a step that hands events to an accepting dispatcher. -/
theorem step_pending_eq_nil (stepped : w.step action = some t)
    (empty : w.globals.queue.pendingCallbacks = [])
    (refused : w.handsIn action = true → w.globals.queue.acceptingCallbacks = false) :
    t.globals.queue.pendingCallbacks = [] := by
  cases World.steps stepped with
  | @native native host args r outside invoked admitted =>
      rw [returned_globals]
      rcases (Native.returns invoked).dispatch_cases with ⟨_, queue⟩ | ⟨object, call, one, queue⟩
      · rw [queue, empty]
      · have stopped := refused (by simp only [handsIn, invoked, one]; rfl)
        rw [queue, CallbackQueue.enqueueCallback_of_not_accepting _ stopped, empty]
  | @callback worker handle object callback made =>
      cases calls : World.invoked w.globals.clients handle object callback with
      | nil =>
          rw [receive, calls]
          exact empty
      | cons handler handlers =>
          have stopped := refused (by simp only [handsIn, calls]; rfl)
          rw [receive_queue_of_stopped rfl stopped, empty]
  | dispatch =>
      rw [offer_globals_of_stopped (refused rfl)]
      exact empty
  | stop => rfl
  | take top popped front =>
      have queue := (CallbackQueue.takeFront_eq_some_iff.mp popped).1
      rw [queue] at empty
      cases empty
  | entered | ret | start | resetClients | destruct | resetOptions | hook | unhook | process
  | drained | execute | discard => exact empty

/-- The loop of a call takes no more events than were queued when it began. -/
theorem Serving.taken_lt (serving : Serving w₀ rest w) (first : QueueValid w₀) {remaining : Nat}
    (top : w.stack = .drain (remaining + 1) :: rest) :
    (Gate.taken (gatesSince w₀ w)).length < w₀.provenance.length := by
  rcases serving with ⟨above, left, here, plain, counted⟩
  have batch : w₀.globals.queue.batchSize ≤ w₀.provenance.length := by
    rw [length_provenance first]
    exact Nat.min_le_left _ _
  cases above with
  | nil =>
      cases here.symm.trans top
      omega
  | cons op above =>
      have drains := plain op List.mem_cons_self
      cases (List.cons.inj (here.symm.trans top)).1
      cases drains

/-- The call that began in `w₀` has kept to its batch so far, and a stop in it has left nothing in
the queue for the rest of its loop. -/
structure Keeping (w₀ : World P) (rest : List GameOp) (w : World P) : Prop where
  delivering : w.Delivering
  later : w₀.history <:+ w.history
  runs : RunsBatch w₀ rest w
  serving : Serving w₀ rest w ∨ w.stack = rest
  flushed : .closed ∈ gatesSince w₀ w → w.globals.queue.pendingCallbacks = []

/-- An undisturbed step leaves nothing behind a stop. -/
theorem flushed_step (later : w₀.history <:+ w.history) (stepped : w.step action = some t)
    (undisturbed : Undisturbed w₀ w action)
    (flushed : .closed ∈ gatesSince w₀ w → w.globals.queue.pendingCallbacks = [])
    (closed : .closed ∈ gatesSince w₀ t) : t.globals.queue.pendingCallbacks = [] := by
  by_cases before : .closed ∈ gatesSince w₀ w
  · refine step_pending_eq_nil stepped (flushed before) fun hands => ?_
    exact Bool.eq_false_iff.mpr fun accepting => undisturbed.2 ⟨before, accepting, hands⟩
  · obtain ⟨newer, gates, kinds⟩ := step_gates stepped
    rw [gatesSince_of_append later (step_history stepped) gates] at closed
    have now := (List.mem_append.mp closed).resolve_right before
    rcases kinds with ⟨unclosed, _⟩ | ⟨rfl, below, top⟩ | ⟨_, _, _, _, _, _, rfl, _⟩
    · exact absurd now unclosed
    · simp only [step, tick, top, Option.some.injEq] at stepped
      rw [← stepped]
      rfl
    · simp at now

theorem Keeping.step (keeping : Keeping w₀ rest w) (first : QueueValid w₀)
    (taken : w.during rest action = some t) (undisturbed : Undisturbed w₀ w action) :
    Keeping w₀ rest t := by
  rcases keeping with ⟨delivering, later, runs, serving | returned, flushed⟩
  · have stepped := steps_of_during taken
    refine ⟨step_delivering stepped delivering, later.trans (step_history stepped), ?_,
      serving.unnested later taken undisturbed.1, flushed_step later stepped undisturbed flushed⟩
    refine (step_runsBatch first stepped delivering later runs).mpr ?_
    intro _ remaining event queue top popped _
    refine ⟨fun closed => ?_, serving.taken_lt first top⟩
    have empty := flushed closed
    rw [(CallbackQueue.takeFront_eq_some_iff.mp popped).1] at empty
    cases empty
  · cases (during_returned returned).symm.trans taken

end World

/-- **Batches.**  From the moment a call of `ProcessPendingCallbacks` takes its batch size: if no
callback begins another call, and after a stop inside the call nobody hands the restarted
dispatcher an event until the call returns, then the call executes only events that were queued at
that moment, and none after a stop. -/
theorem runsBatch_of_undisturbed {before actions : List Action} {w₀ w₁ : World P}
    {rest : List GameOp} (ran : Transition.run World.step World.initial before = some w₀)
    (top : w₀.stack = .processPendingCallbacks :: rest) (began : w₀.step .tick = some w₁)
    (undisturbed : Transition.Allowed (World.during rest) (World.Undisturbed w₁) w₁ actions) :
    Transition.Always (World.during rest) (World.RunsBatch w₁ rest) w₁ actions := by
  have start := World.run_delivering ran World.initial_delivering
  have first := World.step_delivering began start
  have drain := World.tick_process top began
  have settled : inFlight w₁.stack = [] := by
    have tail := start.2.tail
    rw [top] at tail
    rw [drain]
    exact tail
  have serving : World.Serving w₁ rest w₁ := by
    refine ⟨[], w₁.globals.queue.batchSize, ?_, by simp, by simp [World.gatesSince, Gate.taken]⟩
    rw [drain]
    rfl
  have keeping : World.Keeping w₁ rest w₁ :=
    ⟨first, List.suffix_refl _, World.runsBatch_of_inFlight settled, .inl serving,
      fun closed => by simp [World.gatesSince] at closed⟩
  exact undisturbed.always (fun taken meets kept => kept.step first.1 taken meets)
    World.Keeping.runs keeping

/-- Of a batch of three the second callback unloads and reloads the plugins and makes a new client,
whose connection comes up when the call has returned. -/
theorem runsBatch_of_undisturbed_reloaded :
    ∃ w₀ w₁ w : World .plain, ∃ actions : List Action,
      Transition.run World.step World.initial
        [.call .startCallbackDispatcher, .tick, .call (.native .mqttCreate .plain [0, 0]),
          .call (.native .mqttSetConnectedCallback (.registering 7) [1, 0]),
          .callback 3 1 0 (.connected []), .callback 3 1 0 (.connected []),
          .callback 3 1 0 (.connected []), .call .processPendingCallbacks] = some w₀ ∧
      w₀.step .tick = some w₁ ∧ Transition.run (World.during []) w₁ actions = some w ∧
      w.stack = [] ∧ w.globals.clients.clients.keys = [2] ∧
      (executedOffers w.history).length = 2 ∧
      Transition.Always (World.during []) (World.RunsBatch w₁ []) w₁ actions := by
  let constructing : Host := { Host.plain with construct := fun _ _ => .ok 1 }
  let actions : List Action := [.tick, .tick, .ret, .tick, .tick,
    .call .onPluginsUnloading, .tick, .tick, .tick, .tick, .call .onPluginsLoaded, .tick,
    .call (.native .mqttCreate constructing [0, 0]),
    .call (.native .mqttSetConnectedCallback (.registering 8) [2, 0]), .ret, .tick]
  have state : ((Transition.run World.step (World.initial : World .plain)
      [.call .startCallbackDispatcher, .tick, .call (.native .mqttCreate .plain [0, 0]),
        .call (.native .mqttSetConnectedCallback (.registering 7) [1, 0]),
        .callback 3 1 0 (.connected []), .callback 3 1 0 (.connected []),
        .callback 3 1 0 (.connected []), .call .processPendingCallbacks]).bind fun w₀ =>
      (w₀.step .tick).bind fun w₁ => (Transition.run (World.during []) w₁ actions).map fun w =>
        (w₀.stack, w.stack, w.globals.clients.clients.keys, (executedOffers w.history).length,
          decide (Transition.Allowed (World.during []) (World.Undisturbed w₁) w₁ actions))) =
      some ([.processPendingCallbacks], [], [2], 2, true) := by decide +kernel
  obtain ⟨w₀, ran, rest⟩ := Option.bind_eq_some_iff.mp state
  obtain ⟨w₁, began, rest⟩ := Option.bind_eq_some_iff.mp rest
  obtain ⟨w, called, state⟩ := Option.map_eq_some_iff.mp rest
  simp only [Prod.mk.injEq, decide_eq_true_eq] at state
  rcases state with ⟨top, returned, clients, executed, undisturbed⟩
  exact ⟨w₀, w₁, w, actions, ran, began, called, returned, clients, executed,
    runsBatch_of_undisturbed ran top began undisturbed⟩

/-- With two events queued, the first callback unloads and reloads the plugins and makes a new
client, whose connection comes up before the callback returns: the same call goes on to the new
client's event. -/
theorem batch_runs_later_event :
    ¬ ∀ (before actions : List Action) (w₀ w₁ w : World .plain) (rest : List GameOp),
        Transition.run World.step World.initial before = some w₀ →
        w₀.stack = .processPendingCallbacks :: rest → w₀.step .tick = some w₁ →
        Transition.run (World.during rest) w₁ actions = some w → World.RunsBatch w₁ rest w := by
  intro always
  let constructing : Host := { Host.plain with construct := fun _ _ => .ok 1 }
  let late : Offer := ⟨14, .worker 3, some 1, .connectedCallbackDispatcher 2⟩
  have state : ((Transition.run World.step (World.initial : World .plain)
      [.call .startCallbackDispatcher, .tick, .call (.native .mqttCreate .plain [0, 0]),
        .call (.native .mqttSetConnectedCallback (.registering 7) [1, 0]),
        .callback 3 1 0 (.connected []), .callback 3 1 0 (.connected []),
        .call .processPendingCallbacks]).bind fun w₀ => (w₀.step .tick).bind fun w₁ =>
      (Transition.run (World.during []) w₁
        [.tick, .tick, .call .onPluginsUnloading, .tick, .tick, .tick, .tick,
          .call .onPluginsLoaded, .tick, .call (.native .mqttCreate constructing [0, 0]),
          .call (.native .mqttSetConnectedCallback (.registering 8) [2, 0]),
          .callback 3 2 1 (.connected []), .ret, .tick]).map fun w =>
        (w₀.stack, w₁.provenance.map Offer.serial, w.stack,
          (executeCallback w.globals.clients late.event).isSome)) =
      some ([.processPendingCallbacks], [3, 4], [.executeCallback late.event late, .drain 0],
        true) := by decide +kernel
  obtain ⟨w₀, ran, rest⟩ := Option.bind_eq_some_iff.mp state
  obtain ⟨w₁, began, rest⟩ := Option.bind_eq_some_iff.mp rest
  obtain ⟨w, called, state⟩ := Option.map_eq_some_iff.mp rest
  simp only [Prod.mk.injEq] at state
  rcases state with ⟨top, queued, next, found⟩
  have runs := always _ _ w₀ w₁ w [] ran top began called
  have early := (runs late ⟨late.event, 0, next, found⟩).1
  have serial : late.serial ∈ w₁.provenance.map Offer.serial := List.mem_map_of_mem early
  rw [queued] at serial
  exact absurd serial (by decide)

end AmxxMqtt
