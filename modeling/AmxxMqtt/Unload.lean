import AmxxMqtt.Delivery

/-!
# Unloading

`OnPluginsUnloading` and `OnAmxxDetach` run to their end whatever the workers do meanwhile, and
leave every piece of global state as it was at load, except the handle counter.  `Unwinding`
follows them statement by statement; `Idle` says what the frames, the workers and the stale
`mqtt_destroy` calls after them can still do, which is nothing.
-/

namespace AmxxMqtt

variable {P : PahoOptions}

/-! ## What an unload leaves in the history -/

theorem unregistered_append (newer older : History P) :
    unregistered (newer ++ older) = unregistered newer ++ unregistered older := by
  simp only [unregistered, forwardLog, List.flatMap_append, List.filterMap_append]

theorem unregistered_gates (gates : List (Gate.Event Offer)) :
    unregistered (gates.map .gate : History P) = [] := by
  have none := forwardLog_gates gates ([] : History P)
  rw [List.append_nil] at none
  rw [unregistered, none]
  rfl

theorem unregistered_destructed (client : AmxxMqttClient) :
    unregistered ([.destructed client] : History P) = client.destructor.reverse := by
  simp only [unregistered, forwardLog, WorldEvent.forwardEvents, List.flatMap_cons,
    List.flatMap_nil, List.append_nil, ← List.map_reverse, List.filterMap_map, Function.comp_def]
  exact List.filterMap_some

/-! ## The statements of an unload -/

/-- The two entry points that unload the module. -/
def GameCall.unload (detaching : Bool) : GameCall :=
  if detaching then .onAmxxDetach else .onPluginsUnloading

/-- The game thread's own next statement, or a step of a worker. -/
def Action.background : Action → Bool
  | .tick | .callback _ _ _ _ | .dispatch _ _ => true
  | .call _ | .ret => false

/-- The statements of an unload and of the destructors it runs. -/
def GameOp.cleans (detaching : Bool) : GameOp → Bool
  | .stopCallbackDispatcher | .resetClients | .resetOptions | .destruct _ => true
  | .unregisterRehldsFrameHook => detaching
  | _ => false

/-- The ids in the slots of the live clients. -/
def World.liveIds (w : World P) : List Int :=
  (Table.values w.globals.clients.clients).flatMap AmxxMqttClient.slots

theorem World.liveIds_eq (w : World P) :
    w.liveIds = (Table.values w.globals.clients.clients).flatMap AmxxMqttClient.destructor := by
  rw [AmxxMqttClient.destructor_eq_slots]
  rfl

/-- An unload called in `w`, with `ops` still to run, has reached `t`. -/
structure Unwinding (w : World P) (detaching : Bool) (ops : List GameOp) (t : World P) : Prop where
  stack : t.stack = ops ++ w.stack
  cleans : ∀ op ∈ ops, op.cleans detaching = true
  queue : .stopCallbackDispatcher ∉ ops → t.globals.queue = ⟨false, []⟩
  clients : .resetClients ∉ ops → t.globals.clients.clients = ∅
  nextHandle : t.globals.clients.nextHandle = w.globals.clients.nextHandle
  options : .resetOptions ∉ ops → t.globals.options = ⟨∅, ∅⟩
  balanced : t.globals.frameHook.Balanced
  hook : detaching = false → t.globals.frameHook = w.globals.frameHook
  unhooked : detaching = true → .unregisterRehldsFrameHook ∉ ops →
    t.globals.frameHook = ⟨none, []⟩
  released : ∃ newer, t.history = newer ++ w.history ∧
    List.Perm w.liveIds (unregistered newer ++
      ((pendingDestructs ops).flatMap AmxxMqttClient.destructor ++ t.liveIds)) ∧
    ∀ id, t.forwards.lookup id = if id ∈ unregistered newer then none else w.forwards.lookup id

namespace Unwinding

variable {w t u : World P} {detaching : Bool} {ops : List GameOp}

theorem start (balanced : w.globals.frameHook.Balanced) :
    Unwinding w detaching (GameCall.unload detaching).body
      { w with stack := (GameCall.unload detaching).body ++ w.stack } where
  stack := rfl
  cleans := by cases detaching <;> decide
  queue kept := absurd (by cases detaching <;> decide) kept
  clients kept := absurd (by cases detaching <;> decide) kept
  nextHandle := rfl
  options kept := absurd (by cases detaching <;> decide) kept
  balanced := balanced
  hook _ := rfl
  unhooked detaches kept := by
    subst detaches
    exact absurd (by decide) kept
  released := by
    refine ⟨[], rfl, ?_, fun _ => rfl⟩
    rw [pendingDestructs_body]
    exact List.Perm.refl _

/-- A worker runs a Paho callback meanwhile. -/
theorem callback (unwinding : Unwinding w detaching ops t) (producer : Producer) (handle : Int)
    (object : ObjectId) (callback : PahoCallback) :
    Unwinding w detaching ops (t.receive producer handle object callback) where
  stack := World.receive_stack.trans unwinding.stack
  cleans := unwinding.cleans
  queue stopped := World.receive_queue_of_stopped (unwinding.queue stopped) rfl
  clients taken := by
    have empty := unwinding.clients taken
    have dead := MqttClientMgr.getClient_of_empty empty handle
    rw [World.receive_clients, World.received, dead]
    exact empty
  nextHandle := by
    rw [World.receive_clients, World.received]
    split <;> exact unwinding.nextHandle
  options reset := World.receive_options.trans (unwinding.options reset)
  balanced := by
    rw [World.receive_frameHook]
    exact unwinding.balanced
  hook stays := World.receive_frameHook.trans (unwinding.hook stays)
  unhooked detaches done := World.receive_frameHook.trans (unwinding.unhooked detaches done)
  released := by
    rcases unwinding.released with ⟨newer, history, split, table⟩
    rcases t.receive_history with ⟨gates, same⟩
    refine ⟨gates.map .gate ++ newer, by rw [same, history, List.append_assoc], ?_⟩
    rw [unregistered_append, unregistered_gates, List.nil_append, World.receive_forwards]
    have moved : List.Perm (t.receive producer handle object callback).liveIds t.liveIds := by
      rw [World.liveIds_eq, World.liveIds_eq, World.receive_clients]
      exact World.received_owned _ _ _
    exact ⟨split.trans ((moved.symm.append_left _).append_left _), table⟩

/-- A worker calls a producer entry point meanwhile. -/
theorem dispatch (unwinding : Unwinding w detaching ops t) (producer : Producer)
    (call : DispatcherCall) : Unwinding w detaching ops (t.offer producer none call) where
  stack := unwinding.stack
  cleans := unwinding.cleans
  queue stopped := by
    have empty := unwinding.queue stopped
    rw [World.offer_globals_of_stopped (by rw [empty])]
    exact empty
  clients := unwinding.clients
  nextHandle := unwinding.nextHandle
  options := unwinding.options
  balanced := unwinding.balanced
  hook := unwinding.hook
  unhooked := unwinding.unhooked
  released := by
    rcases unwinding.released with ⟨newer, history, split, table⟩
    exact ⟨_ :: newer, congrArg (_ :: ·) history, split, table⟩

/-- The statement on top is one of the unload's. -/
theorem pop (unwinding : Unwinding w detaching ops t) (outside : w.outside = true) {op : GameOp}
    {rest : List GameOp} (top : t.stack = op :: rest) (inside : op ≠ .foreign) :
    ∃ later, ops = op :: later ∧ rest = later ++ w.stack ∧ op.cleans detaching = true := by
  have stack := unwinding.stack.symm.trans top
  cases ops with
  | nil =>
      rw [List.nil_append] at stack
      rw [World.outside, stack] at outside
      cases op <;> first | exact absurd rfl inside | cases outside
  | cons first later =>
      obtain ⟨rfl, rfl⟩ := List.cons.inj stack
      exact ⟨later, rfl, rfl, unwinding.cleans first List.mem_cons_self⟩

/-- Running a statement other than the destructors. -/
theorem advance {op : GameOp} {later : List GameOp}
    (unwinding : Unwinding w detaching (op :: later) t) {globals : Globals P}
    {provenance : List Offer} (event : List (WorldEvent P)) (notReset : op ≠ .resetClients)
    (hook : globals.frameHook =
      if op = .unregisterRehldsFrameHook then ⟨none, []⟩ else t.globals.frameHook := by rfl)
    (silent : unregistered event = [] := by rfl) (kept : pendingDestructs [op] = [] := by rfl)
    (queue : globals.queue =
      if op = .stopCallbackDispatcher then ⟨false, []⟩ else t.globals.queue := by rfl)
    (clients : globals.clients = t.globals.clients := by rfl)
    (options : globals.options =
      if op = .resetOptions then ⟨∅, ∅⟩ else t.globals.options := by rfl) :
    Unwinding w detaching later
      { t with globals, stack := later ++ w.stack, provenance, history := event ++ t.history } where
  stack := rfl
  cleans other member := unwinding.cleans other (List.mem_cons_of_mem _ member)
  queue done := by
    by_cases here : op = .stopCallbackDispatcher
    · exact queue.trans (if_pos here)
    · exact (queue.trans (if_neg here)).trans
        (unwinding.queue (List.not_mem_cons_of_ne_of_not_mem (Ne.symm here) done))
  clients done := by
    show globals.clients.clients = ∅
    rw [clients]
    exact unwinding.clients (List.not_mem_cons_of_ne_of_not_mem (Ne.symm notReset) done)
  nextHandle := by
    show globals.clients.nextHandle = _
    rw [clients]
    exact unwinding.nextHandle
  options done := by
    by_cases here : op = .resetOptions
    · exact options.trans (if_pos here)
    · exact (options.trans (if_neg here)).trans
        (unwinding.options (List.not_mem_cons_of_ne_of_not_mem (Ne.symm here) done))
  balanced := by
    show globals.frameHook.Balanced
    rw [hook]
    split
    · rfl
    · exact unwinding.balanced
  hook stays := by
    have removes := unwinding.cleans op List.mem_cons_self
    by_cases here : op = .unregisterRehldsFrameHook
    · rw [here, stays] at removes
      cases removes
    · exact (hook.trans (if_neg here)).trans (unwinding.hook stays)
  unhooked detaches done := by
    by_cases here : op = .unregisterRehldsFrameHook
    · exact hook.trans (if_pos here)
    · exact (hook.trans (if_neg here)).trans
        (unwinding.unhooked detaches (List.not_mem_cons_of_ne_of_not_mem (Ne.symm here) done))
  released := by
    rcases unwinding.released with ⟨newer, history, split, table⟩
    refine ⟨event ++ newer, by rw [history, List.append_assoc], ?_⟩
    have same : pendingDestructs (op :: later) = pendingDestructs later := by
      have apart := pendingDestructs_append [op] later
      rwa [kept, List.nil_append] at apart
    have ids : (Table.values globals.clients.clients).flatMap AmxxMqttClient.slots =
        t.liveIds := by
      rw [clients]
      rfl
    rw [unregistered_append, silent, List.nil_append]
    refine ⟨?_, table⟩
    show List.Perm _ (_ ++ (_ ++ (Table.values globals.clients.clients).flatMap _))
    rw [ids, ← same]
    exact split

/-- The table goes, and its clients wait for their destructors. -/
theorem reset {later : List GameOp} (unwinding : Unwinding w detaching (.resetClients :: later) t) :
    Unwinding w detaching (t.globals.clients.reset.1.map .destruct ++ later)
      { t with
        globals := { t.globals with clients := t.globals.clients.reset.2 }
        stack := t.globals.clients.reset.1.map .destruct ++ (later ++ w.stack)
        history := .clientsReset :: t.history } := by
  have past : ∀ {op : GameOp}, op ≠ .resetClients →
      op ∉ t.globals.clients.reset.1.map .destruct ++ later → op ∉ .resetClients :: later :=
    fun different absent => List.not_mem_cons_of_ne_of_not_mem different fun member =>
      absent (List.mem_append_right _ member)
  refine ⟨(List.append_assoc _ _ _).symm, fun op member => ?_, fun done => ?_, fun _ => rfl,
    unwinding.nextHandle, fun done => ?_, unwinding.balanced, unwinding.hook,
    fun detaches done => ?_, ?_⟩
  · rcases List.mem_append.mp member with destructor | other
    · obtain ⟨client, _, rfl⟩ := List.mem_map.mp destructor
      rfl
    · exact unwinding.cleans op (List.mem_cons_of_mem _ other)
  · exact unwinding.queue (past (by simp) done)
  · exact unwinding.options (past (by simp) done)
  · exact unwinding.unhooked detaches (past (by simp) done)
  · rcases unwinding.released with ⟨newer, history, split, table⟩
    refine ⟨.clientsReset :: newer, congrArg (_ :: ·) history, ?_, table⟩
    rw [pendingDestructs_append, pendingDestructs_destructs, List.flatMap_append]
    refine split.trans (List.Perm.append_left _ ?_)
    rw [MqttClientMgr.reset, ← World.liveIds_eq]
    show List.Perm (_ ++ t.liveIds) ((t.liveIds ++ _) ++ [])
    rw [List.append_nil]
    exact List.perm_append_comm

/-- One of the destructors runs. -/
theorem destruct {client : AmxxMqttClient} {later : List GameOp}
    (unwinding : Unwinding w detaching (.destruct client :: later) t) :
    Unwinding w detaching later
      { t with
        forwards := World.unregister t.forwards client.destructor
        stack := later ++ w.stack, history := .destructed client :: t.history } := by
  have past : ∀ {op : GameOp}, op ≠ .destruct client → op ∉ later →
      op ∉ .destruct client :: later :=
    fun different absent => List.not_mem_cons_of_ne_of_not_mem different absent
  refine ⟨rfl, fun op member => unwinding.cleans op (List.mem_cons_of_mem _ member),
    fun done => unwinding.queue (past (by simp) done),
    fun done => unwinding.clients (past (by simp) done), unwinding.nextHandle,
    fun done => unwinding.options (past (by simp) done), unwinding.balanced, unwinding.hook,
    fun detaches done => unwinding.unhooked detaches (past (by simp) done), ?_⟩
  rcases unwinding.released with ⟨newer, history, split, table⟩
  have first := unregistered_append [.destructed client] newer
  rw [unregistered_destructed, List.singleton_append] at first
  refine ⟨.destructed client :: newer, congrArg (_ :: ·) history, split.trans ?_, fun id => ?_⟩
  · rw [first, List.perm_iff_count]
    intro id
    show List.count id (unregistered newer ++ ((client.destructor ++
        (pendingDestructs later).flatMap AmxxMqttClient.destructor) ++ t.liveIds)) =
      List.count id ((client.destructor.reverse ++ unregistered newer) ++
        ((pendingDestructs later).flatMap AmxxMqttClient.destructor ++ t.liveIds))
    simp only [List.count_append, List.count_reverse]
    omega
  · rw [first, World.unregister, Table.lookup_eraseAll, table]
    by_cases mine : id ∈ client.destructor <;> simp [mine]

/-- The game thread's next statement is one of the unload's, and one fewer is left. -/
theorem tick (unwinding : Unwinding w detaching ops t) (outside : w.outside = true)
    (ticked : t.step .tick = some u) : ∃ later, Unwinding w detaching later u ∧
      ops.length + Table.size t.globals.clients.clients =
        later.length + Table.size u.globals.clients.clients + 1 := by
  cases World.steps ticked with
  | stop top =>
      obtain ⟨later, rfl, rfl, _⟩ := unwinding.pop outside top (by simp)
      refine ⟨later, unwinding.advance [.gate .closed] (by simp), ?_⟩
      exact Nat.add_right_comm _ _ _
  | resetClients top =>
      obtain ⟨later, rfl, rfl, _⟩ := unwinding.pop outside top (by simp)
      refine ⟨_, unwinding.reset, ?_⟩
      simp only [MqttClientMgr.reset, List.length_cons, List.length_append, List.length_map,
        Table.length_values, Table.size_empty]
      omega
  | destruct top =>
      obtain ⟨later, rfl, rfl, _⟩ := unwinding.pop outside top (by simp)
      exact ⟨later, unwinding.destruct, Nat.add_right_comm _ _ _⟩
  | resetOptions top =>
      obtain ⟨later, rfl, rfl, _⟩ := unwinding.pop outside top (by simp)
      refine ⟨later, unwinding.advance [.optionsReset] (by simp), ?_⟩
      exact Nat.add_right_comm _ _ _
  | unhook top =>
      obtain ⟨later, rfl, rfl, _⟩ := unwinding.pop outside top (by simp)
      refine ⟨later, unwinding.advance [] (by simp) unwinding.balanced.unregister, ?_⟩
      exact Nat.add_right_comm _ _ _
  | start top | hook top | process top | drained top ended | take top popped front
  | execute top found | discard top found =>
      obtain ⟨_, _, _, cleans⟩ := unwinding.pop outside top (by simp)
      cases cleans

/-- Left alone, the game thread runs the unload to its end, in one step for each statement and
each client. -/
theorem finishes (unwinding : Unwinding w detaching ops t) (outside : w.outside = true)
    {steps : Nat} (count : ops.length + Table.size t.globals.clients.clients = steps) :
    ∃ u, Transition.run World.step t (List.replicate steps .tick) = some u ∧
      u.stack = w.stack := by
  induction steps generalizing t ops with
  | zero =>
      have none : ops = [] := List.length_eq_zero_iff.mp (by omega)
      refine ⟨t, rfl, ?_⟩
      rw [unwinding.stack, none, List.nil_append]
  | succ steps ih =>
      have pending : ops ≠ [] := by
        intro none
        rw [unwinding.clients (by simp [none]), Table.size_empty, none] at count
        cases count
      obtain ⟨op, rest, split⟩ := List.exists_cons_of_ne_nil pending
      have cleans := unwinding.cleans op (split ▸ List.mem_cons_self)
      have stack := unwinding.stack
      rw [split, List.cons_append] at stack
      have enabled : ∃ u, t.step .tick = some u := by
        simp only [World.step, World.tick, stack]
        cases op <;> first | exact ⟨_, rfl⟩ | cases cleans
      rcases enabled with ⟨u, ticked⟩
      obtain ⟨later, next, fewer⟩ := unwinding.tick outside ticked
      obtain ⟨v, ran, stack⟩ := ih next (by omega)
      exact ⟨v, Transition.run_cons.mpr ⟨u, ticked, ran⟩, stack⟩

/-- Whatever the workers do, the unload goes on. -/
theorem step (unwinding : Unwinding w detaching ops t) (outside : w.outside = true)
    {action : Action} (background : action.background = true) (stepped : t.step action = some u) :
    ∃ later, Unwinding w detaching later u := by
  cases action with
  | tick =>
      obtain ⟨later, next, _⟩ := unwinding.tick outside stepped
      exact ⟨later, next⟩
  | callback worker handle object callback =>
      cases World.steps stepped
      exact ⟨ops, unwinding.callback _ _ _ _⟩
  | dispatch worker call =>
      cases World.steps stepped
      exact ⟨ops, unwinding.dispatch _ _⟩
  | call | ret => cases background

theorem run (unwinding : Unwinding w detaching ops t) (outside : w.outside = true)
    {actions : List Action} (background : ∀ action ∈ actions, action.background = true)
    (ran : Transition.run World.step t actions = some u) :
    ∃ later, Unwinding w detaching later u := by
  have kept : ∀ {s action v}, Action.background action = true → World.step s action = some v →
      (∃ later, Unwinding w detaching later s) → ∃ later, Unwinding w detaching later v := by
    intro s action v allowed stepped reached
    rcases reached with ⟨later, unwinding⟩
    exact unwinding.step outside allowed stepped
  exact @Transition.run_invariant _ _ _ (fun action => action.background = true)
    (fun s => ∃ later, Unwinding w detaching later s) kept _ _ _ ran background ⟨ops, unwinding⟩

end Unwinding

/-! ## After an unload -/

/-- Frames, workers, calls of `mqtt_destroy`, and the same unload again. -/
def Action.quiet (detaching : Bool) : Action → Bool
  | .tick | .ret | .callback _ _ _ _ | .dispatch _ _ => true
  | .call .onServerFrame | .call .processPendingCallbacks => true
  | .call (.native native _ _) => native = .mqttDestroy
  | .call .onPluginsUnloading => true
  | .call .onAmxxDetach => detaching
  | .call _ => false

/-- The module's global state holds nothing. -/
structure Globals.Emptied (g : Globals P) (detaching : Bool) : Prop where
  queue : g.queue = ⟨false, []⟩
  clients : g.clients.clients = ∅
  options : g.options = ⟨∅, ∅⟩
  unhooked : detaching = true → g.frameHook = ⟨none, []⟩

/-- The statements that can still be pending. -/
def GameOp.idle (detaching : Bool) (op : GameOp) : Prop :=
  op.calls = true ∨ op ∈ (GameCall.unload detaching).body

/-- Nothing has happened to the emptied state since `w`. -/
structure Idle (detaching : Bool) (w t : World P) : Prop where
  globals : t.globals = w.globals
  stack : ∀ op ∈ t.stack, op.idle detaching
  executed : executedOffers t.history = executedOffers w.history
  forwards : forwardLog t.history = forwardLog w.history
  table : t.forwards = w.forwards

theorem GameOp.idle_of_body {detaching : Bool} {call : GameCall} {op : GameOp}
    (quiet : (Action.call call).quiet detaching = true) (member : op ∈ call.body) :
    op.idle detaching := by
  cases call with
  | onServerFrame =>
      simp only [GameCall.body, List.mem_cons, List.not_mem_nil, or_false] at member
      rcases member with rfl | rfl <;> exact .inl rfl
  | processPendingCallbacks =>
      cases List.mem_singleton.mp member
      exact .inl rfl
  | onPluginsUnloading =>
      simp only [GameCall.body, List.mem_cons, List.not_mem_nil, or_false] at member
      rcases member with rfl | rfl | rfl <;> cases detaching <;> exact .inr (by decide)
  | onAmxxDetach =>
      cases detaching with
      | false => cases quiet
      | true => exact .inr member
  | native => cases member
  | onAmxxAttach | onPluginsLoaded | startCallbackDispatcher | stopCallbackDispatcher =>
      cases quiet

/-- Destroying a handle of an empty table does nothing. -/
theorem Returns.destroy_of_empty {host : Host} {params : List Cell} {g : Globals P}
    {r : NativeReturn P} (returns : Returns host params g .mqttDestroy r)
    (empty : g.clients.clients = ∅) :
    r.globals = g ∧ r.removed = none ∧ r.effects.filterMap Effect.forwardEvent = [] := by
  cases returns with
  | rejected => exact ⟨rfl, rfl, rfl⟩
  | @destroyed handle arg =>
      rcases g with ⟨queue, ⟨table, nextHandle⟩, options, hook⟩
      cases empty
      exact ⟨rfl, rfl, rfl⟩
  | requested kind | requestThrew kind | stored kind => cases kind

namespace Idle

variable {w t u : World P} {detaching : Bool}

/-- The step left the globals alone, and left nothing in the views. -/
theorem advance (idle : Idle detaching w t)
    (stack : ∀ op ∈ u.stack, op ∈ t.stack ∨ op.idle detaching)
    (globals : u.globals = t.globals := by rfl)
    (executed : executedOffers u.history = executedOffers t.history := by rfl)
    (forwards : forwardLog u.history = forwardLog t.history := by rfl)
    (table : u.forwards = t.forwards := by rfl) : Idle detaching w u where
  globals := globals.trans idle.globals
  stack op member := (stack op member).elim (idle.stack op) id
  executed := executed.trans idle.executed
  forwards := forwards.trans idle.forwards
  table := table.trans idle.table

theorem step (idle : Idle detaching w t) (emptied : w.globals.Emptied detaching) {action : Action}
    (quiet : action.quiet detaching = true) (stepped : t.step action = some u) :
    Idle detaching w u := by
  rw [← idle.globals] at emptied
  have below : ∀ {op : GameOp} {rest : List GameOp}, t.stack = op :: rest →
      ∀ other ∈ rest, other ∈ t.stack ∨ other.idle detaching :=
    fun top other member => .inl (top ▸ List.mem_cons_of_mem _ member)
  have onTop : ∀ {op : GameOp} {rest : List GameOp}, t.stack = op :: rest → op.idle detaching :=
    fun top => idle.stack _ (top ▸ List.mem_cons_self)
  cases World.steps stepped with
  | @native native host args r outside invoked admitted =>
      have kind : native = .mqttDestroy := of_decide_eq_true quiet
      subst kind
      obtain ⟨globals, kept, silent⟩ := (Native.returns invoked).destroy_of_empty emptied.clients
      refine idle.advance (fun op member => .inl ?_) (World.returned_globals.trans globals) ?_ ?_
        (World.returned_forwards.trans (ForwardsValid.applyEffects_of_none silent _))
      · rwa [World.returned_stack, kept] at member
      · rcases t.returned_history with ⟨gates, history⟩
        rw [history, executedOffers_gates]
        rfl
      · rw [World.returned_forwardLog, silent]
        rfl
  | entered outside plain =>
      refine idle.advance fun op member => ?_
      rcases List.mem_append.mp member with pushed | older
      · exact .inr (GameOp.idle_of_body quiet pushed)
      · exact .inl older
  | callback made =>
      rcases t.receive_history with ⟨gates, history⟩
      refine idle.advance (fun op member => .inl (World.receive_stack ▸ member)) ?_ ?_ ?_
        World.receive_forwards
      · unfold World.receive
        rw [World.offerAll_globals_of_stopped]
        · simp only [World.received, MqttClientMgr.getClient_of_empty emptied.clients]
        · show t.globals.queue.acceptingCallbacks = false
          rw [emptied.queue]
      · rw [history, executedOffers_gates]
      · rw [history, forwardLog_gates]
  | dispatch =>
      refine idle.advance (fun _ member => .inl member) ?_
      exact World.offer_globals_of_stopped (by rw [emptied.queue]) _ _ _
  | stop top =>
      refine idle.advance (below top) ?_
      rw [CallbackQueue.stopCallbackDispatcher, ← emptied.queue]
  | resetClients top =>
      have none : t.globals.clients.reset.1 = [] := by
        rw [MqttClientMgr.reset, emptied.clients]
        rfl
      refine idle.advance (by rw [none]; exact below top) ?_
      rw [MqttClientMgr.reset, ← emptied.clients]
  | resetOptions top =>
      refine idle.advance (below top) ?_
      rw [ConnectOptionMgr.reset, ← emptied.options]
  | unhook top =>
      refine idle.advance (below top) ?_
      have detaches : detaching = true := by
        cases detaching with
        | true => rfl
        | false =>
            rcases onTop top with calls | member
            · cases calls
            · simp [GameCall.unload, GameCall.body] at member
      have same : t.globals.frameHook.unregisterRehldsFrameHook = t.globals.frameHook := by
        rw [emptied.unhooked detaches]
        rfl
      rw [same]
  | ret top | drained top ended | discard top found => exact idle.advance (below top)
  | process top =>
      refine idle.advance fun op member => ?_
      rcases List.mem_cons.mp member with rfl | older
      · exact .inr (.inl rfl)
      · exact below top op older
  | take top popped front =>
      rw [emptied.queue] at popped
      cases popped
  | execute top found =>
      rw [executeCallback_of_dead (MqttClientMgr.getClient_of_empty emptied.clients _)] at found
      cases found
  | start top | hook top | destruct top =>
      rcases onTop top with calls | member
      · cases calls
      · cases detaching <;> simp [GameCall.unload, GameCall.body] at member

theorem run (idle : Idle detaching w t) (emptied : w.globals.Emptied detaching)
    {actions : List Action} (quiet : ∀ action ∈ actions, action.quiet detaching = true)
    (ran : Transition.run World.step t actions = some u) : Idle detaching w u :=
  Transition.run_invariant (fun quiet stepped idle => idle.step emptied quiet stepped) ran quiet
    idle

end Idle

/-! ## The frame hook -/

theorem World.step_balanced {w t : World P} {action : Action} (stepped : w.step action = some t)
    (balanced : w.globals.frameHook.Balanced) : t.globals.frameHook.Balanced := by
  cases World.steps stepped with
  | native outside invoked admitted =>
      rw [World.returned_globals, (Native.returns invoked).frameHook]
      exact balanced
  | callback made =>
      rw [World.receive_frameHook]
      exact balanced
  | hook top => exact balanced.register _
  | unhook top =>
      show w.globals.frameHook.unregisterRehldsFrameHook.Balanced
      rw [balanced.unregister]
      rfl
  | entered | ret | dispatch | start | stop | resetClients | destruct | resetOptions | process
  | drained | take | execute | discard => exact balanced

/-! ## The guarantee -/

/-- An unload called in `w` has left `t` behind. -/
structure World.Unloaded (w : World P) (detaching : Bool) (t : World P) : Prop where
  queue : t.globals.queue = ⟨false, []⟩
  clients : t.globals.clients = { w.globals.clients with clients := ∅ }
  options : t.globals.options = ⟨∅, ∅⟩
  hook : t.globals.frameHook = if detaching then ⟨none, []⟩ else w.globals.frameHook
  /-- each id in a slot of a live client was unregistered once, and nothing else was -/
  released : ∃ newer, t.history = newer ++ w.history ∧ w.liveIds.Nodup ∧
    List.Perm w.liveIds (unregistered newer)
  /-- AMXX had a forward for each of them -/
  registered : ∀ id ∈ w.liveIds, id ∈ w.forwards
  /-- and has none any more, while the others stay -/
  forwards : ∀ id, t.forwards.lookup id = if id ∈ w.liveIds then none else w.forwards.lookup id

/-- With no statement left to run, every slot has been released. -/
theorem Unwinding.released_all {w t : World P} {detaching : Bool}
    (unwinding : Unwinding w detaching [] t) : ∃ newer, t.history = newer ++ w.history ∧
      List.Perm w.liveIds (unregistered newer) ∧
      ∀ id, t.forwards.lookup id =
        if id ∈ unregistered newer then none else w.forwards.lookup id := by
  rcases unwinding.released with ⟨newer, history, split, table⟩
  have none : t.liveIds = [] := by
    rw [World.liveIds, unwinding.clients (by simp)]
    rfl
  rw [none] at split
  exact ⟨newer, history, by simpa [pendingDestructs] using split, table⟩

/-- The unload has no statement left to run. -/
theorem Unwinding.unloaded {w t : World P} {detaching : Bool}
    (unwinding : Unwinding w detaching [] t) (distinct : w.liveIds.Nodup)
    (registered : ∀ id ∈ w.liveIds, id ∈ w.forwards) : w.Unloaded detaching t where
  queue := unwinding.queue (by simp)
  clients := by
    have empty := unwinding.clients (by simp)
    have next := unwinding.nextHandle
    rcases same : t.globals.clients with ⟨table, nextHandle⟩
    rw [same] at empty next
    cases empty
    cases next
    rfl
  options := unwinding.options (by simp)
  hook := by
    cases detaching with
    | false => exact unwinding.hook rfl
    | true => exact unwinding.unhooked rfl (by simp)
  released := by
    obtain ⟨newer, history, split, _⟩ := unwinding.released_all
    exact ⟨newer, history, distinct, split⟩
  registered := registered
  forwards id := by
    obtain ⟨newer, _, split, table⟩ := unwinding.released_all
    rw [table]
    exact if_congr split.mem_iff.symm rfl rfl

theorem World.Unloaded.emptied {w t : World P} {detaching : Bool}
    (unloaded : w.Unloaded detaching t) : t.globals.Emptied detaching where
  queue := unloaded.queue
  clients := by rw [unloaded.clients]
  options := unloaded.options
  unhooked detaches := by rw [unloaded.hook, if_pos detaches]

/-- **Unloading is complete and final.**  Called from outside the module in any reachable state,
`OnPluginsUnloading` and `OnAmxxDetach` run to their end, and whatever workers do meanwhile they
leave the state of `Unloaded`, with no forward of a live client left in AMXX's table.  Frames,
workers, `mqtt_destroy` calls and further unloads then change no global, execute no forward, and
neither register nor unregister one. -/
theorem unload_complete {before : List Action} {w : World P} (detaching : Bool)
    (ran : Transition.run World.step World.initial before = some w) (outside : w.outside = true) :
    (∃ steps t, Transition.run World.step w
        (.call (.unload detaching) :: List.replicate steps .tick) = some t ∧ t.stack = w.stack) ∧
      ∀ (during : List Action) (t : World P), (∀ action ∈ during, action.background = true) →
        Transition.run World.step w (.call (.unload detaching) :: during) = some t →
        t.stack = w.stack →
          w.Unloaded detaching t ∧
          ∀ (later : List Action) (u : World P), (∀ action ∈ later, action.quiet detaching = true) →
            Transition.run World.step t later = some u →
              u.globals = t.globals ∧ executedOffers u.history = executedOffers t.history ∧
              forwardLog u.history = forwardLog t.history ∧ u.forwards = t.forwards := by
  have coherent := World.Coherent.of_run ran
  have balanced : w.globals.frameHook.Balanced :=
    Transition.run_invariant (fun _ stepped balanced => World.step_balanced stepped balanced) ran
      (fun _ _ => True.intro) FrameHook.balanced_initial
  have called : w.step (.call (.unload detaching)) =
      some { w with stack := (GameCall.unload detaching).body ++ w.stack } := by
    cases detaching <;> simp only [World.step, outside, ↓reduceIte] <;> rfl
  have started : Unwinding w detaching _ _ := Unwinding.start balanced
  refine ⟨?_, fun during t background unloading returned => ?_⟩
  · obtain ⟨t, finished, stack⟩ := started.finishes outside rfl
    exact ⟨_, t, Transition.run_cons.mpr ⟨_, called, finished⟩, stack⟩
  · obtain ⟨first, same, rest⟩ := Transition.run_cons.mp unloading
    cases called.symm.trans same
    obtain ⟨ops, unwinding⟩ := started.run outside background rest
    have none : ops = [] := by
      have stack := unwinding.stack
      rw [returned] at stack
      exact List.self_eq_append_left.mp stack
    subst none
    have owned : w.liveIds.Nodup ∧ ∀ id ∈ w.liveIds, id ∈ w.forwards := by
      rcases coherent.accounted with ⟨_, _, leaked, forwards⟩
      have held := forwards.heldIds_nodup
      rw [World.heldIds, List.flatMap_append, ← World.liveIds_eq] at held
      refine ⟨(List.nodup_append.mp held).1, fun id live => forwards.mem_forwards ?_⟩
      rw [World.heldIds, List.flatMap_append, ← World.liveIds_eq]
      exact List.mem_append_left _ live
    have unloaded := unwinding.unloaded owned.1 owned.2
    refine ⟨unloaded, fun later u quiet ran => ?_⟩
    have idle : Idle detaching t t := by
      refine ⟨rfl, fun op member => ?_, rfl, rfl, rfl⟩
      rw [returned] at member
      exact .inl (coherent.accounted.2.1.calls_of_outside outside op member)
    have after := idle.run unloaded.emptied quiet ran
    exact ⟨after.globals, after.executed, after.forwards, after.table⟩

/-- Unloading from inside the connected callback, while a worker still reports for the client. -/
theorem unload_complete_nested :
    ∃ w t : World .plain,
      Transition.run World.step World.initial
        [.call .startCallbackDispatcher, .tick, .call (.native .mqttCreate .plain [0, 0]),
          .call (.native .mqttSetConnectedCallback (.registering 7) [1, 0]),
          .callback 3 1 0 (.connected []), .call .processPendingCallbacks, .tick, .tick, .tick] =
            some w ∧
      Transition.run World.step w
        [.call (.unload true), .tick, .tick, .callback 3 1 0 (.connectionLost []), .tick, .tick,
          .tick] = some t ∧
      unregistered t.history = [7] ∧ w.Unloaded true t := by
  have state : (Transition.run World.step (World.initial : World .plain)
      [.call .startCallbackDispatcher, .tick, .call (.native .mqttCreate .plain [0, 0]),
        .call (.native .mqttSetConnectedCallback (.registering 7) [1, 0]),
        .callback 3 1 0 (.connected []), .call .processPendingCallbacks, .tick, .tick, .tick]).map
          (fun w => (w.outside, (Transition.run World.step w
            [.call (.unload true), .tick, .tick, .callback 3 1 0 (.connectionLost []), .tick,
              .tick, .tick]).map fun t => (decide (t.stack = w.stack), unregistered t.history))) =
            some (true, some (true, [7])) := by
    decide +kernel
  obtain ⟨w, ran, state⟩ := Option.map_eq_some_iff.mp state
  obtain ⟨outside, state⟩ := Prod.mk.inj state
  obtain ⟨t, unloading, state⟩ := Option.map_eq_some_iff.mp state
  obtain ⟨returned, ids⟩ := Prod.mk.inj state
  have unloaded := (unload_complete true ran outside).2 _ t (by decide) unloading
    (of_decide_eq_true returned)
  exact ⟨w, t, ran, unloading, ids, unloaded.1⟩

end AmxxMqtt
