import AmxxMqtt.Attribution

/-!
# The destructor's turn

Three statements change what a client has of its own, its flag, its handlers and `m_stopping`
(`base_step`).  `Stopping` says when `m_stopping` is set: from the destructor's critical section on
the game thread has nothing left to run that uses the client but the destruction of its Paho
object, and this begins with `m_stopping` set.
-/

namespace AmxxMqtt

/-- What a statement does to the `MqttClient` part of a client. -/
def ThreadOp.rewrite (object : ObjectId) (base : MqttClient BoundHandler) :
    ThreadOp → MqttClient BoundHandler
  | .storeConnected target value =>
      if object = target then { base with isConnected := value } else base
  | .storeHandler target type handler =>
      if object = target then base.setHandler type (some handler) else base
  | .setStopping target => if object = target then { base with stopping := true } else base
  | _ => base

/-- The statements of the destructor behind the first. -/
def ThreadOp.stops : ThreadOp → Bool
  | .setStopping _ | .paho _ .destroy => true
  | _ => false

/-- `m_stopping` is set right before the Paho object is destroyed. -/
def Stops : List ThreadOp → Prop
  | [] => True
  | op :: rest =>
      (∀ object, op = .setStopping object →
        ∃ below, rest = .unlock (.handlerMutex object) :: .paho object .destroy :: below) ∧
      Stops rest

theorem stops_append {statements rest : List ThreadOp}
    (none : ∀ op ∈ statements, op.stops = false) (stops : Stops rest) :
    Stops (statements ++ rest) := by
  induction statements with
  | nil => exact stops
  | cons op statements ih =>
      obtain ⟨first, later⟩ := List.forall_mem_cons.mp none
      refine ⟨fun object is => ?_, ih later⟩
      subst is
      cases first

/-! ## Which statements come up -/

theorem stops_exec {P : PahoOptions} {shared shared' : Shared P} {op : ThreadOp}
    {statements : List ThreadOp} (other : ∀ object, op ≠ .destroyClient object)
    (executed : op.exec shared = some (shared', statements)) :
    ∀ next ∈ statements, next.stops = false := by
  cases op with
  | foreign | paho | lock | unlock => cases executed
  | destroyClient object => exact absurd rfl (other object)
  | drain remaining => cases remaining <;> cases executed <;> simp [ThreadOp.stops]
  | takeFront | executeCallback | copyHandler | makeIndex | emplace =>
      simp only [ThreadOp.exec] at executed
      split at executed <;> cases executed <;> simp [ThreadOp.stops]
  | buildOptions =>
      simp only [ThreadOp.exec] at executed
      split at executed
      · split at executed <;> cases executed <;> simp [ThreadOp.stops]
      · cases executed
        simp
  | resetClients =>
      cases executed
      intro next member
      obtain ⟨client, _, rfl⟩ := List.mem_map.mp member
      rfl
  | _ =>
      cases executed
      simp [ThreadOp.guarded, ThreadOp.stops]

theorem stops_of_producing {op : ThreadOp} (producer : op.producing = true) :
    op.stops = false := by
  cases op <;> first | rfl | cases producer

theorem stops_paho {P : PahoOptions} {object : ObjectId} (asked : PahoRequest P) :
    (ThreadOp.paho object asked.operation).stops = false := by
  cases asked <;> rfl

theorem stops_native {P : PahoOptions} {native : Native} {host : Host} {params : List Cell}
    {r : NativeReturn P} :
    ∀ op ∈ native.statements host params r, op.stops = false := by
  intro op member
  by_cases options : native = .mqttCreateConnectOptions
  · subst options
    cases List.mem_singleton.mp member
    rfl
  rw [statements_eq options] at member
  rcases List.mem_append.mp member with effects | destroys
  · obtain ⟨effect, _, follows⟩ := List.mem_flatMap.mp effects
    cases effect with
    | constructed object =>
        simp only [Effect.statements, List.mem_cons, List.not_mem_nil, or_false] at follows
        rcases follows with rfl | rfl | rfl | rfl | rfl <;> rfl
    | request object asked =>
        rcases List.mem_cons.mp follows with rfl | later
        · exact stops_paho asked
        · unfold Native.afterRequest at later
          split at later
          · cases List.mem_singleton.mp later
            rfl
          · split at later
            · cases List.mem_singleton.mp later
              rfl
            · cases later
          · cases later
    | logError error =>
        cases List.mem_singleton.mp follows
        rfl
    | registered | unregistered | dispatched => cases follows
  · obtain ⟨client, _, rfl⟩ := List.mem_map.mp destroys
    rfl

theorem stops_body (call : GameCall) :
    ∀ op ∈ call.body.map GameOp.statement, op.stops = false := by
  cases call <;> simp [GameCall.body, GameOp.statement, ThreadOp.stops]

namespace Threads

variable {P : PahoOptions} {n : Nat} {s s' : Threads P n} {t : Thread n} {object : ObjectId}
  {client client' : AmxxMqttClient}

/-! ## What changes a client -/

/-- What the step does to the `MqttClient` part of a client. -/
def rewrite (s : Threads P n) (object : ObjectId) (base : MqttClient BoundHandler) :
    ThreadAction n → MqttClient BoundHandler
  | .run t =>
      match s.stack t with
      | op :: _ => op.rewrite object base
      | [] => base
  | _ => base

theorem rewrite_run {op : ThreadOp} {rest : List ThreadOp} {base : MqttClient BoundHandler}
    (top : s.stack t = op :: rest) : s.rewrite object base (.run t) = op.rewrite object base := by
  simp only [rewrite, top]

theorem base_exec (tracked : s.Tracked) {op : ThreadOp} {statements rest : List ThreadOp}
    {shared : Shared P} (top : s.stack t = op :: rest)
    (executed : op.exec s.shared = some (shared, statements))
    (before : s.shared.client object = some client)
    (after : shared.client object = some client') :
    client'.base = op.rewrite object client.base := by
  have unchanged (same : s.shared.client object = some client') :
      client'.base = client.base := by
    cases before.symm.trans same
    rfl
  -- the client that a statement of its own leaves
  have written {target : ObjectId} {f : MqttClient BoundHandler → MqttClient BoundHandler}
      (after : (s.shared.modifyBase target f).client object = some client') :
      client'.base = if object = target then f client.base else client.base := by
    rw [Shared.client_modifyBase tracked.listed] at after
    split at after
    · rename_i same
      subst same
      rw [before] at after
      cases after
      exact (if_pos rfl).symm
    · rw [if_neg ‹_›]
      exact unchanged after
  cases op with
  | foreign | paho | lock | unlock => cases executed
  | drain remaining => cases remaining <;> cases executed <;> exact unchanged after
  | takeFront | executeCallback | copyHandler | makeIndex =>
      simp only [ThreadOp.exec] at executed
      split at executed <;> cases executed <;> exact unchanged after
  | buildOptions =>
      simp only [ThreadOp.exec] at executed
      split at executed
      · split at executed <;> cases executed <;> exact unchanged after
      · cases executed
        exact unchanged after
  | storeConnected | storeHandler | setStopping =>
      cases executed
      exact written after
  | emplace handle entered =>
      cases game_of_moves tracked.sound top rfl
      have room := tracked.room (top ▸ List.mem_cons_self)
      have free : handle ∉ s.shared.globals.clients.clients :=
        room.next ▸ tracked.clients.next_notMem
      exact unchanged (Shared.carries_emplace tracked.listed free executed _ _ after)
  | resetClients =>
      exact unchanged (Shared.carries_resetClients tracked.listed executed _ _ after)
  | _ =>
      cases executed
      exact unchanged after

/-- A client that exists before and after a step. -/
theorem base_step {action : ThreadAction n} (tracked : s.Tracked)
    (taken : s.step action = some s') (before : s.shared.client object = some client)
    (after : s'.shared.client object = some client') :
    client'.base = s.rewrite object client.base action := by
  have tracked' := step_tracked taken tracked
  have unchanged (same : s.shared.client object = some client') :
      client'.base = client.base := by
    cases before.symm.trans same
    rfl
  cases steps taken with
  | lock top | unlock top =>
      rw [rewrite_run top]
      exact unchanged after
  | exec top executed =>
      rw [rewrite_run top]
      exact base_exec tracked top executed before after
  | pahoRet top destroyed left =>
      rcases left with rfl | rfl
      · exact unchanged after
      · refine unchanged (tracked.listed.client_iff.mpr ?_)
        refine (tracked'.listed.client_iff.mp after).imp_right fun loose => ?_
        rw [Table.lookup_erase_iff] at loose
        split at loose
        · cases loose
        · exact loose
  | native callable invoked fresh =>
      have known := known_of_client tracked before
      obtain ⟨found, was, base⟩ := base_enterNative tracked tracked'.listed
        (Native.returns invoked) (fun new => fresh object new known) after
      cases before.symm.trans was
      exact base.symm
  | ret | entered | callback | dispatch => exact unchanged after

/-- **A client after a step was there before and the step's statement rewrote it, or it has just
been constructed.** -/
theorem client_of_step {action : ThreadAction n} (tracked : s.Tracked)
    (taken : s.step action = some s') (after : s'.shared.client object = some client') :
    (∃ client, s.shared.client object = some client ∧
      client'.base = s.rewrite object client.base action) ∨
      object ∉ s.shared.constructed ∧ client'.base = {} := by
  have tracked' := step_tracked taken tracked
  by_cases known : object ∈ s.shared.constructed
  · have alive := (live_of_step tracked taken known).2
      (live_iff.mpr (Option.isSome_of_eq_some after))
    obtain ⟨client, before⟩ := Option.isSome_iff_exists.mp (live_iff.mp alive)
    exact .inl ⟨client, before, base_step tracked taken before after⟩
  · refine .inr ⟨known, ?_⟩
    have made := known_of_client tracked' after
    cases steps taken with
    | native callable invoked fresh =>
        exact base_constructed tracked tracked'.listed (Native.returns invoked) known after
    | exec top executed => exact absurd (constructed_exec executed ▸ made) known
    | pahoRet top destroyed left =>
        rcases left with rfl | rfl <;> exact absurd made known
    | lock | unlock | ret | entered | callback | dispatch => exact absurd made known

/-! ## What is on the game thread's stack -/

/-- A statement leaves the game thread's stack when it is the top one and the thread runs. -/
theorem stays_of_step {action : ThreadAction n} (taken : s.step action = some s')
    {op : ThreadOp} (member : op ∈ s.stack .game) : op ∈ s'.stack .game ∨
      ∃ rest, s.stack .game = op :: rest ∧ (action = .run .game ∨ action = .ret .game) := by
  have kept {u : Thread n} {top : ThreadOp} (statements : List ThreadOp) {rest : List ThreadOp}
      (stack : s.stack u = top :: rest) (ran : action = .run u ∨ action = .ret u) :
      op ∈ Function.update s.stack u (statements ++ rest) .game ∨
        ∃ rest, s.stack .game = op :: rest ∧ (action = .run .game ∨ action = .ret .game) := by
    by_cases here : u = .game ∧ op = top
    · rcases here with ⟨rfl, rfl⟩
      exact .inr ⟨rest, stack, ran⟩
    · refine .inl ?_
      cases u with
      | worker i => exact member
      | game => exact remains stack (fun same => here ⟨rfl, same⟩) member
  cases steps taken with
  | lock top | unlock top => exact kept [] top (.inl rfl)
  | ret top | pahoRet top => exact kept [] top (.inr rfl)
  | exec top executed => exact kept _ top (.inl rfl)
  | native => exact .inl (pushed member)
  | entered | callback | dispatch => exact .inl (pushed member)

/-! ## The destructor -/

/-- Nothing of the game thread's is left for the client but the end of its destructor. -/
def Parting (s : Threads P n) (object : ObjectId) : Prop :=
  .paho object .destroy ∈ s.stack .game ∧
    ∀ op ∈ s.stack .game, op.uses = some object → op = .paho object .destroy ∨ op.producing = true

/-- Where the destructors are. -/
structure Stopping (s : Threads P n) : Prop where
  tracked : s.Tracked
  stops : Stops (s.stack .game)
  parting : ∀ {object client}, s.shared.client object = some client →
    client.base.stopping = true → s.Parting object
  stopped : ∀ {object client}, .paho object .destroy ∈ s.stack .game →
    s.shared.client object = some client →
      .setStopping object ∈ s.stack .game ∨ client.base.stopping = true

theorem stopping_initial : (initial : Threads P n).Stopping where
  tracked := tracked_initial
  stops := True.intro
  parting found := nomatch found
  stopped member := absurd member List.not_mem_nil

theorem stops_step {action : ThreadAction n} (taken : s.step action = some s')
    (stops : Stops (s.stack .game)) : Stops (s'.stack .game) := by
  have popped {u : Thread n} {top : ThreadOp} {rest : List ThreadOp}
      (stack : s.stack u = top :: rest) : Stops (Function.update s.stack u rest .game) :=
    Lifetimes.update_main (v := s.lifetimes) (fun same => by
      subst same
      rw [stack] at stops
      exact stops.2) stops
  have pushed {u : Thread n} {statements : List ThreadOp}
      (none : ∀ op ∈ statements, op.stops = false) : Stops ((s.push u statements).stack .game) :=
    Lifetimes.update_main (v := s.lifetimes) (fun same => by
      subst same
      exact stops_append none stops) stops
  cases steps taken with
  | lock top | unlock top | ret top | pahoRet top => exact popped top
  | @exec t op shared statements rest top executed =>
      refine Lifetimes.update_main (v := s.lifetimes) (fun same => ?_) stops
      subst same
      rw [top] at stops
      by_cases destructor : ∃ object, op = .destroyClient object
      · rcases destructor with ⟨object, rfl⟩
        cases executed
        refine ⟨by simp, ?_, by simp, by simp, stops.2⟩
        rintro _ ⟨⟩
        exact ⟨rest, rfl⟩
      · exact stops_append (stops_exec (not_exists.mp destructor) executed) stops.2
  | native => exact pushed stops_native
  | entered => exact pushed (stops_body _)
  | callback =>
      exact pushed fun op member =>
        stops_of_producing (PahoCallback.producing_statements op member)
  | dispatch => exact pushed (by simp [ThreadOp.stops])

theorem ThreadOp.stopping_rewrite {op : ThreadOp} {base : MqttClient BoundHandler}
    (stopping : (op.rewrite object base).stopping = true) :
    base.stopping = true ∨ op = .setStopping object := by
  cases op with
  | storeConnected | storeHandler =>
      simp only [ThreadOp.rewrite] at stopping
      split at stopping
      · refine .inl ?_
        first
        | exact stopping
        | rwa [MqttClient.setHandler_stopping] at stopping
      · exact .inl stopping
  | setStopping target =>
      by_cases same : object = target
      · exact .inr (same ▸ rfl)
      · rw [ThreadOp.rewrite, if_neg same] at stopping
        exact .inl stopping
  | _ => exact .inl stopping

theorem ThreadOp.rewrite_stopping {op : ThreadOp} {base : MqttClient BoundHandler}
    (stopping : base.stopping = true) : (op.rewrite object base).stopping = true := by
  cases op with
  | storeConnected | storeHandler | setStopping =>
      simp only [ThreadOp.rewrite]
      split
      · first
        | exact stopping
        | rfl
        | rwa [MqttClient.setHandler_stopping]
      · exact stopping
  | _ => exact stopping

theorem Parting.step {action : ThreadAction n} (tracked : s.Tracked)
    (taken : s.step action = some s') (after : s'.shared.client object = some client')
    (parting : s.Parting object) : s'.Parting object := by
  rcases parting with ⟨destroys, only⟩
  have away : s.callable = true → False := fun callable => by
    cases unused_of_callable tracked callable _ destroys
  refine ⟨(stays_of_step taken destroys).resolve_right fun ends => ?_, fun op member used => ?_⟩
  · rcases ends with ⟨rest, top, rfl | rfl⟩
    · cases steps taken with
      | lock top' | unlock top' => cases top.symm.trans top'
      | exec top' executed =>
          cases top.symm.trans top'
          cases executed
    · exact (tracked.freed top taken).2 (live_iff.mpr (Option.isSome_of_eq_some after))
  · rcases arrives_of_step taken member with old | new
    · exact only op old used
    · cases new with
      | native callable => exact (away callable).elim
      | entered callable => exact (away callable).elim
      | produced producer => exact .inr producer
      | @led above rest statements shared top executed _ new =>
          have here : above ∈ s.stack .game := top ▸ List.mem_cons_self
          cases moves : above.movesClients with
          | false =>
              rcases only above here ((ThreadOp.exec_hands moves executed).uses op new used) with
                rfl | producer
              · cases executed
              · exact .inr ((ThreadOp.exec_producing producer executed).1 op new)
          | true =>
              -- the manager no longer has the client
              have absent := (tracked.loose_only (tracked.alive.owner.mpr ⟨_, destroys, rfl⟩)).2
              cases above with
              | emplace handle entered =>
                  simp only [ThreadOp.exec] at executed
                  split at executed <;> cases executed <;> cases new
              | resetClients =>
                  cases executed
                  obtain ⟨client, among, rfl⟩ := List.mem_map.mp new
                  obtain ⟨handle, live⟩ := Table.mem_values_iff.mp among
                  cases used
                  have placed := Shared.objectAt_of_live live
                  exact absurd placed (Shared.handleOf_eq_none_iff.mp absent handle)
              | _ => cases moves

/-- Paho's part of a destructor comes up with the critical section before it. -/
theorem destroys_of_step {action : ThreadAction n} (taken : s.step action = some s')
    (destroys : .paho object .destroy ∈ s'.stack .game) : .paho object .destroy ∈ s.stack .game ∨
      .destroyClient object ∈ s.stack .game ∧ .setStopping object ∈ s'.stack .game := by
  refine (arrives_of_step taken destroys).imp_right fun new => ?_
  have comes (none : (ThreadOp.paho object .destroy).stops = false) : False := by cases none
  cases new with
  | native callable _ _ member => exact (comes (stops_native _ member)).elim
  | entered callable member => exact (comes (stops_body _ _ member)).elim
  | produced producer => exact (comes (stops_of_producing producer)).elim
  | @led above rest statements shared top executed after member =>
      by_cases destructor : ∃ other, above = .destroyClient other
      · rcases destructor with ⟨other, rfl⟩
        cases executed
        obtain rfl : object = other := by simpa [ThreadOp.guarded] using member
        rw [top, after]
        exact ⟨List.mem_cons_self, by simp [ThreadOp.guarded]⟩
      · exact (comes (stops_exec (not_exists.mp destructor) executed _ member)).elim

theorem stopping_of_rewrite {action : ThreadAction n} {base : MqttClient BoundHandler}
    (stopping : (s.rewrite object base action).stopping = true) : base.stopping = true ∨
      ∃ t rest, action = .run t ∧ s.stack t = .setStopping object :: rest := by
  cases action with
  | run t =>
      cases top : s.stack t with
      | nil =>
          rw [rewrite, top] at stopping
          exact .inl stopping
      | cons op rest =>
          rw [rewrite_run top] at stopping
          refine (ThreadOp.stopping_rewrite stopping).imp_right fun same => ?_
          exact ⟨t, rest, rfl, same ▸ top⟩
  | _ => exact .inl stopping

theorem rewrite_stopping {action : ThreadAction n} {base : MqttClient BoundHandler}
    (stopping : base.stopping = true) : (s.rewrite object base action).stopping = true := by
  unfold rewrite
  split
  · split
    exacts [ThreadOp.rewrite_stopping stopping, stopping]
  · exact stopping

/-- The destructor's critical section. -/
theorem parting_setStopping (before : s.Stopping) {rest : List ThreadOp}
    (top : s.stack t = .setStopping object :: rest) (taken : s.step (.run t) = some s') :
    s'.Parting object := by
  cases game_of_producing before.tracked.sound top rfl
  have stops := before.stops
  have ordered : ThreadOp.discipline.Ordered (s.stack .game) := before.tracked.alive.ordered
  rw [top] at stops ordered
  obtain ⟨below, rfl⟩ := stops.1 object rfl
  have left : s'.stack .game =
      .unlock (.handlerMutex object) :: .paho object .destroy :: below := by
    cases steps taken with
    | lock top' | unlock top' => cases top.symm.trans top'
    | exec top' executed =>
        cases top.symm.trans top'
        cases executed
        exact Function.update_self .game _ s.stack
  unfold Parting
  rw [left]
  refine ⟨by simp, fun op member used => ?_⟩
  rcases List.mem_cons.mp member with rfl | member
  · exact .inr rfl
  · rcases List.mem_cons.mp member with rfl | under
    · exact .inl rfl
    · exact absurd used ((ordered.tail.tail.below_top op under).2 object rfl)

/-- **One step's invariant.** -/
theorem step_stopping {action : ThreadAction n} (taken : s.step action = some s')
    (before : s.Stopping) : s'.Stopping := by
  have tracked := before.tracked
  -- a statement of a client's on the stack is one of a client there is
  have known {op : ThreadOp} (member : op ∈ s.stack .game) {object : ObjectId}
      (used : op.uses = some object) : object ∈ s.shared.constructed := by
    obtain ⟨client, found⟩ :=
      Option.isSome_iff_exists.mp (live_iff.mp (tracked.alive.live member used))
    exact known_of_client tracked found
  refine ⟨step_tracked taken tracked, stops_step taken before.stops,
    fun {object client'} after stopping => ?_, fun {object client'} destroys after => ?_⟩
  · rcases client_of_step tracked taken after with ⟨client, was, same⟩ | ⟨_, new⟩
    · rw [same] at stopping
      rcases stopping_of_rewrite stopping with already | ⟨t, rest, rfl, top⟩
      · exact (before.parting was already).step tracked taken after
      · exact parting_setStopping before top taken
    · rw [new] at stopping
      cases stopping
  · rcases destroys_of_step taken destroys with old | ⟨destructor, critical⟩
    · rcases client_of_step tracked taken after with ⟨client, was, same⟩ | ⟨unknown, _⟩
      · rcases before.stopped old was with critical | already
        · refine (stays_of_step taken critical).imp_right fun ends => ?_
          rcases ends with ⟨rest, top, rfl | rfl⟩
          · rw [same, rewrite_run top, ThreadOp.rewrite, if_pos rfl]
          · cases steps taken with
            | ret top' | pahoRet top' => cases top.symm.trans top'
        · exact .inr (same ▸ rewrite_stopping already)
      · exact absurd (known old rfl) unknown
    · exact .inl critical

namespace Stopping

variable {op : ThreadOp} {rest : List ThreadOp}

/-- While the game thread has more to do with a client its destructor has not begun. -/
theorem working (stopping : s.Stopping) (member : op ∈ s.stack .game)
    (used : op.uses = some object) (other : op ≠ .paho object .destroy)
    (consumer : op.producing = false) (found : s.shared.client object = some client) :
    client.base.stopping = false := by
  refine Bool.eq_false_iff.mpr fun already => ?_
  rcases (stopping.parting found already).2 op member used with same | producer
  · exact other same
  · cases consumer.symm.trans producer

/-- When Paho destroys its object `m_stopping` is set. -/
theorem ended (stopping : s.Stopping) (top : s.stack .game = .paho object .destroy :: rest)
    (found : s.shared.client object = some client) : client.base.stopping = true := by
  refine (stopping.stopped (top ▸ List.mem_cons_self) found).resolve_left fun critical => ?_
  have ordered : ThreadOp.discipline.Ordered (s.stack .game) := stopping.tracked.alive.ordered
  rw [top] at ordered critical
  rcases List.mem_cons.mp critical with same | under
  · cases same
  · exact (ordered.below_top _ under).2 object rfl rfl

end Stopping

end Threads

end AmxxMqtt
