import AmxxMqtt.DataRaces
import AmxxMqtt.MailboxRefinement

/-!
# Events reach the client they come from

An event carries a handle only, and the client that receives it is looked up when it is delivered.
`Belongs` says that a handle is one client's now and later: the manager has at most that client
under it, and will issue it to no other.  `Attributed` is what every step keeps: the handlers of a
client, installed or about to be, carry a handle that belongs to it, in the slot of their kind.
-/

namespace AmxxMqtt

/-- The handler a statement installs, and where. -/
def ThreadOp.installs : ThreadOp → Option (ObjectId × CallbackType × BoundHandler)
  | .setHandler object type handler | .storeHandler object type handler =>
      some (object, type, handler)
  | _ => none

theorem ThreadOp.uses_of_installs {op : ThreadOp} {object : ObjectId} {type : CallbackType}
    {handler : BoundHandler} (installs : op.installs = some (object, type, handler)) :
    op.uses = some object := by
  cases op <;> cases installs <;> rfl

theorem ThreadOp.manager_unwritten {op : ThreadOp} (stays : op.movesClients = false) :
    Location.manager ∉ op.writes := by
  cases op with
  | emplace | resetClients => cases stays
  | _ => simp [ThreadOp.writes]

namespace Threads

variable {P : PahoOptions} {n : Nat} {s s' : Threads P n} {t : Thread n} {handle : Int}
  {object : ObjectId}

/-! ## Handles -/

/-- The handle is the client's, and no other's. -/
structure Belongs (s : Threads P n) (handle : Int) (object : ObjectId) : Prop where
  own : ∀ {other}, s.shared.objectAt handle = some other → other = object
  issued : handle < s.shared.globals.clients.nextHandle ∨ .emplace handle object ∈ s.stack .game

/-- A statement stays on the game thread's stack while another one is executed. -/
theorem remains {op other : ThreadOp} {statements rest : List ThreadOp}
    (top : s.stack t = op :: rest) (different : other ≠ op) (member : other ∈ s.stack .game) :
    other ∈ Function.update s.stack t (statements ++ rest) .game := by
  cases t with
  | worker i => exact member
  | game =>
      rw [Function.update_self]
      rw [top] at member
      exact List.mem_append_right _ (List.mem_of_ne_of_mem different member)

theorem remains_popped {op other : ThreadOp} {rest : List ThreadOp} (top : s.stack t = op :: rest)
    (different : other ≠ op) (member : other ∈ s.stack .game) :
    other ∈ Function.update s.stack t rest .game := by
  show other ∈ Function.update s.stack t ([] ++ rest) .game
  exact remains top different member

theorem pushed {op : ThreadOp} {statements : List ThreadOp} (member : op ∈ s.stack .game) :
    op ∈ (s.push t statements).stack .game := by
  cases t with
  | worker i => exact member
  | game =>
      rw [push_stack, Function.update_self]
      exact List.mem_append_right _ member

theorem nextHandle_entered {native : Native} {host : Host} {params : List Cell}
    {r : NativeReturn P} {g : Globals P} (returns : Returns host params g native r) :
    (native.entered g r).clients.nextHandle = g.clients.nextHandle := by
  cases returns with
  | created made => rfl
  | destroyed arg => rfl
  | stored =>
      rcases entered_cases native g _ with globals | globals <;> rw [globals]
      rfl
  | _ => exact congrArg MqttClientMgr.nextHandle (entered_of_same rfl)

/-- A step that issues no handle. -/
theorem Belongs.of_same (belongs : s.Belongs handle object)
    (place : ∀ {other}, s'.shared.objectAt handle = some other →
      s.shared.objectAt handle = some other)
    (next : s'.shared.globals.clients.nextHandle = s.shared.globals.clients.nextHandle)
    (pending : .emplace handle object ∈ s.stack .game →
      .emplace handle object ∈ s'.stack .game) : s'.Belongs handle object where
  own found := belongs.own (place found)
  issued := by
    rw [next]
    exact belongs.issued.imp_right pending

/-- A client under construction enters the table. -/
theorem belongs_emplace (tracked : s.Tracked) {entered : Int} {client : ObjectId}
    {shared : Shared P} {statements rest : List ThreadOp}
    (top : s.stack .game = .emplace entered client :: rest)
    (executed : (ThreadOp.emplace entered client).exec s.shared = some (shared, statements))
    (belongs : s.Belongs handle object) :
    Belongs (n := n) { s with
      shared, stack := Function.update s.stack .game (statements ++ rest) } handle object := by
  have here : ThreadOp.emplace entered client ∈ s.stack .game := top ▸ List.mem_cons_self
  have room := tracked.room here
  have free : entered ∉ s.shared.globals.clients.clients := room.next ▸ tracked.clients.next_notMem
  have owned : s.shared.loose client := tracked.alive.owner.mpr ⟨_, here, rfl⟩
  obtain ⟨contents, found⟩ := Option.isSome_iff_exists.mp owned
  have increment : (s.shared.globals.clients.nextHandle + 1) % 2 ^ 64 =
      s.shared.globals.clients.nextHandle + 1 := by
    have small := room.small
    unfold int32Max at small
    exact Nat.mod_eq_of_lt (by omega)
  simp only [ThreadOp.exec, found, increment] at executed
  cases executed
  -- the statement is the last that is to construct a client
  have which : handle < s.shared.globals.clients.nextHandle ∨
      handle = entered ∧ object = client := by
    rcases belongs.issued with below | pending
    · exact .inl below
    · rw [top] at pending
      rcases List.mem_cons.mp pending with same | later
      · cases same
        exact .inr ⟨rfl, rfl⟩
      · have ordered := tracked.alive.ordered
        rw [show s.lifetimes.stack .game = _ from top] at ordered
        cases (ordered.below_top _ later).1 rfl
  have next := room.next
  refine ⟨fun {other} placed => ?_, .inl ?_⟩
  · replace placed := (Shared.objectAt_emplace free handle).symm.trans placed
    split at placed
    · cases placed
      rcases which with below | ⟨_, rfl⟩
      · omega
      · exact (tracked.listed.unlisted found).1
    · exact belongs.own placed
  · show handle < ((s.shared.globals.clients.nextHandle + 1 : Nat) : Int)
    push_cast
    rcases which with below | ⟨rfl, _⟩ <;> omega

theorem step_belongs {action : ThreadAction n} (tracked : s.Tracked)
    (taken : s.step action = some s') (belongs : s.Belongs handle object) :
    s'.Belongs handle object := by
  cases steps taken with
  | lock top | unlock top | ret top =>
      exact belongs.of_same id rfl (remains_popped top (by simp))
  | @pahoRet t freed operation shared rest top destroyed left =>
      rcases left with rfl | rfl <;>
        exact belongs.of_same id rfl (remains_popped top (by simp))
  | @exec t op shared statements rest top executed =>
      cases moves : op.movesClients with
      | false =>
          obtain ⟨place, next⟩ := Location.same_exec tracked.listed moves executed
            (ThreadOp.manager_unwritten moves)
          refine belongs.of_same (fun found => place handle ▸ found) next (remains top ?_)
          rintro rfl
          cases moves
      | true =>
          cases game_of_moves tracked.sound top moves
          cases op with
          | emplace entered client => exact belongs_emplace tracked top executed belongs
          | resetClients =>
              cases executed
              exact belongs.of_same (fun found => nomatch found) rfl (remains top (by simp))
          | _ => cases moves
  | @native native host args r callable invoked fresh =>
      have returns := Native.returns invoked
      refine belongs.of_same (fun {other} found => ?_) (nextHandle_entered returns)
        fun pending => ?_
      · obtain ⟨client, live, rfl⟩ := Option.map_eq_some_iff.mp found
        obtain ⟨before, was, same, _⟩ := kept_of_entered returns live
        exact same ▸ Shared.objectAt_of_live was
      · exact pushed pending
  | entered | callback | dispatch => exact belongs.of_same id rfl pushed

/-! ## Handlers -/

theorem known_of_client (tracked : s.Tracked) {client : AmxxMqttClient}
    (found : s.shared.client object = some client) : object ∈ s.shared.constructed := by
  rcases tracked.listed.client_iff.mp found with ⟨handle, live, rfl⟩ | loose
  · exact tracked.listed.known (Shared.objectAt_of_live live)
  · exact (tracked.listed.unlisted loose).2.1

/-- A client that has just been constructed has no handlers. -/
theorem base_constructed {native : Native} {host : Host} {params : List Cell}
    {r : NativeReturn P} (tracked : s.Tracked)
    (listed : (s.enterNative native host params r).shared.Listed)
    (returns : Returns host params s.shared.globals native r)
    (unknown : object ∉ s.shared.constructed) {client : AmxxMqttClient}
    (found : (s.enterNative native host params r).shared.client object = some client) :
    client.base = {} := by
  rcases listed.client_iff.mp found with ⟨place, live, rfl⟩ | loose
  · obtain ⟨before, was, same, _⟩ := kept_of_entered returns live
    exact absurd (same ▸ tracked.listed.known (Shared.objectAt_of_live was)) unknown
  · rcases Shared.lookup_unlist _ _ loose with ⟨removed, rfl⟩ | built
    · obtain ⟨handle, here⟩ := kept_of_removed returns removed
      exact absurd (tracked.listed.known here) unknown
    · rcases construct_cases _ _ built with old | ⟨_, rfl⟩
      · exact absurd (tracked.listed.unlisted old).2.1 unknown
      · rfl

/-- The statement a thread executes when it writes. -/
theorem exec_of_writes {op : ThreadOp} {rest : List ThreadOp} {location : Location}
    (taken : s.step (.run t) = some s') (top : s.stack t = op :: rest)
    (writes : location ∈ op.writes) : ∃ shared statements,
    op.exec s.shared = some (shared, statements) ∧
      s' = { s with shared, stack := Function.update s.stack t (statements ++ rest) } := by
  cases steps taken with
  | lock top' | unlock top' =>
      cases top.symm.trans top'
      cases writes
  | exec top' executed =>
      cases top.symm.trans top'
      exact ⟨_, _, executed, rfl⟩

/-- A handler installed after a step was installed before, or the step installs it. -/
theorem handler_of_step {action : ThreadAction n} (tracked : s.Tracked)
    (taken : s.step action = some s') {client : AmxxMqttClient} {type : CallbackType}
    {handler : BoundHandler} (found : s'.shared.client object = some client)
    (installed : client.base.handler type = some handler) :
    (∃ before, s.shared.client object = some before ∧ before.base.handler type = some handler) ∨
      ∃ t, .storeHandler object type handler ∈ s.stack t := by
  have tracked' := step_tracked taken tracked
  by_cases known : object ∈ s.shared.constructed
  · have alive := (live_of_step tracked taken known).2
      (live_iff.mpr (Option.isSome_of_eq_some found))
    obtain ⟨before, was⟩ := Option.isSome_iff_exists.mp (live_iff.mp alive)
    by_cases writes : s.Writes action (.handlers object)
    · cases writes with
      | @run t op rest _ top writes =>
          obtain ⟨shared, statements, executed, rfl⟩ := exec_of_writes taken top writes
          cases op with
          | storeHandler target other stored =>
              cases List.mem_singleton.mp writes
              cases executed
              have after : (s.shared.modifyBase object _).client object = some client := found
              rw [Shared.client_modifyBase tracked.listed, if_pos rfl, was,
                Option.map_some] at after
              cases after
              rw [MqttClient.handler_setHandler] at installed
              split at installed
              · rename_i same
                cases installed
                exact .inr ⟨t, by rw [top, same]; exact List.mem_cons_self⟩
              · exact .inl ⟨before, was, installed⟩
          | setStopping target =>
              cases List.mem_singleton.mp writes
              cases executed
              have after : (s.shared.modifyBase object _).client object = some client := found
              rw [Shared.client_modifyBase tracked.listed, if_pos rfl, was,
                Option.map_some] at after
              cases after
              exact .inl ⟨before, was, by cases type <;> exact installed⟩
          | _ => simp [ThreadOp.writes] at writes
      | freed top part =>
          cases game_of_destroy tracked.sound top
          rcases part with same | same <;> cases same
          have gone := (tracked.freed top taken).2
          exact absurd (live_iff.mpr (Option.isSome_of_eq_some found)) gone
      | native ofGame => cases ofGame
      | constructed fresh part =>
          rcases part with same | same <;> cases same
          exact absurd known fresh
    · have same := (step_same tracked taken writes before client was found).1 type
      exact .inl ⟨before, was, same.symm.trans installed⟩
  · have made := known_of_client tracked' found
    cases steps taken with
    | native callable invoked fresh =>
        have returns := Native.returns invoked
        rw [base_constructed tracked tracked'.listed returns known found] at installed
        cases type <;> cases installed
    | exec top executed => exact absurd (constructed_exec executed ▸ made) known
    | pahoRet top destroyed left =>
        rcases left with rfl | rfl <;> exact absurd made known
    | lock | unlock | ret | entered | callback | dispatch => exact absurd made known

theorem exec_installs {op next : ThreadOp} {shared shared' : Shared P}
    {statements : List ThreadOp} (executed : op.exec shared = some (shared', statements))
    (member : next ∈ statements) {handler : ObjectId × CallbackType × BoundHandler}
    (installs : next.installs = some handler) : op.installs = some handler := by
  have plain (none : ∀ next ∈ statements, next.installs = none) : op.installs = some handler := by
    cases (none next member).symm.trans installs
  cases op with
  | foreign | paho | lock | unlock => cases executed
  | setHandler object type stored =>
      cases executed
      simp only [ThreadOp.guarded, List.mem_cons, List.not_mem_nil, or_false] at member
      rcases member with rfl | rfl | rfl
      · cases installs
      · exact installs
      · cases installs
  | drain remaining =>
      cases remaining <;> cases executed <;> exact plain (by simp [ThreadOp.installs])
  | takeFront | executeCallback | copyHandler | makeIndex | emplace =>
      simp only [ThreadOp.exec] at executed
      split at executed <;> cases executed <;> exact plain (by simp [ThreadOp.installs])
  | buildOptions =>
      simp only [ThreadOp.exec] at executed
      split at executed
      · split at executed <;> cases executed <;> exact plain (by simp [ThreadOp.installs])
      · cases executed
        exact plain (by simp)
  | resetClients =>
      cases executed
      refine plain fun next member => ?_
      obtain ⟨client, _, rfl⟩ := List.mem_map.mp member
      rfl
  | _ =>
      cases executed
      exact plain (by simp [ThreadOp.guarded, ThreadOp.installs])

/-- Natives install handlers in the client they construct, which carry the handle it will get. -/
theorem installs_native {native : Native} {host : Host} {params : List Cell}
    {r : NativeReturn P} {op : ThreadOp} {type : CallbackType} {handler : BoundHandler}
    (member : op ∈ native.statements host params r)
    (installs : op.installs = some (object, type, handler)) :
    handler = ⟨type, r.value⟩ ∧ .emplace r.value object ∈ native.statements host params r := by
  by_cases options : native = .mqttCreateConnectOptions
  · subst options
    cases List.mem_singleton.mp member
    cases installs
  rw [statements_eq options] at member ⊢
  rcases List.mem_append.mp member with effects | destroys
  · obtain ⟨effect, among, follows⟩ := List.mem_flatMap.mp effects
    have here : ∀ {op}, op ∈ effect.statements native host params r.value →
        op ∈ r.effects.flatMap (Effect.statements native host params r.value) ++
          r.removed.toList.map fun client => .destroyClient client.object :=
      fun follows => List.mem_append_left _ (List.mem_flatMap.mpr ⟨effect, among, follows⟩)
    cases effect with
    | constructed constructed =>
        refine ⟨?_, here ?_⟩
        all_goals
          simp only [Effect.statements, List.mem_cons, List.not_mem_nil, or_false] at follows
          rcases follows with rfl | rfl | rfl | rfl | rfl <;> cases installs
          all_goals simp [Effect.statements]
    | request asked request =>
        rcases List.mem_cons.mp follows with rfl | later
        · cases installs
        · unfold Native.afterRequest at later
          split at later
          · cases List.mem_singleton.mp later
            cases installs
          · split at later
            · cases List.mem_singleton.mp later
              cases installs
            · cases later
          · cases later
    | logError error =>
        cases List.mem_singleton.mp follows
        cases installs
    | registered | unregistered | dispatched => cases follows
  · obtain ⟨client, _, rfl⟩ := List.mem_map.mp destroys
    cases installs

/-! ## Every step -/

/-- The handlers of every client, and those that are to be installed, are of the kind of their
slot and carry a handle of the client's own. -/
structure Attributed (s : Threads P n) : Prop where
  tracked : s.Tracked
  installed : ∀ {object client type handler}, s.shared.client object = some client →
    client.base.handler type = some handler →
      handler.type = type ∧ s.Belongs handler.handle object
  pending : ∀ {t op object type handler}, op ∈ s.stack t →
    op.installs = some (object, type, handler) →
      handler.type = type ∧ s.Belongs handler.handle object

/-- The handle a native is about to issue belongs to the client it constructs. -/
theorem belongs_constructed {native : Native} {host : Host} {params : List Cell}
    {r : NativeReturn P} (tracked : s.Tracked)
    (returns : Returns host params s.shared.globals native r)
    (pending : .emplace handle object ∈ native.statements host params r) :
    (s.enterNative native host params r).Belongs handle object := by
  have room := room_entered returns tracked.clients pending
  have free := (valid_entered returns tracked.clients).next_notMem
  refine ⟨fun {other} found => ?_, .inr ?_⟩
  · obtain ⟨client, live, _⟩ := Option.map_eq_some_iff.mp found
    rw [← room.next] at free
    exact absurd (AList.lookup_isSome.mp (Option.isSome_of_eq_some live)) free
  · rw [enterNative_stack, Function.update_self]
    exact List.mem_append_left _ pending

/-- A statement that is to install a handler was there before the step, or led to it, or belongs
to the native the step enters. -/
theorem installs_of_step {action : ThreadAction n} (taken : s.step action = some s')
    {op : ThreadOp} (member : op ∈ s'.stack t) {handler : ObjectId × CallbackType × BoundHandler}
    (installs : op.installs = some handler) :
    (∃ u, ∃ other ∈ s.stack u, other.installs = some handler) ∨
      ∃ native host args r, native.invoke host (frame args) s.shared.globals = .ok r ∧
        s' = s.enterNative native host (frame args) r ∧
        op ∈ native.statements host (frame args) r := by
  have old {u : Thread n} {stack : List ThreadOp}
      (within : op ∈ stack → ∃ other ∈ s.stack u, other.installs = some handler)
      (member : op ∈ Function.update s.stack u stack t) :
      (∃ u, ∃ other ∈ s.stack u, other.installs = some handler) := by
    rcases Lifetimes.mem_update (v := s.lifetimes) member with ⟨_, new⟩ | ⟨_, same⟩
    exacts [⟨u, within new⟩, ⟨t, op, same, installs⟩]
  have below {u : Thread n} {top : ThreadOp} {rest : List ThreadOp}
      (stack : s.stack u = top :: rest) (member : op ∈ rest) :
      ∃ other ∈ s.stack u, other.installs = some handler :=
    ⟨op, stack ▸ List.mem_cons_of_mem _ member, installs⟩
  have pushed {u : Thread n} {statements : List ThreadOp}
      (none : ∀ next ∈ statements, next.installs = none) (member : op ∈ statements ++ s.stack u) :
      ∃ other ∈ s.stack u, other.installs = some handler := by
    rcases List.mem_append.mp member with new | under
    · cases (none op new).symm.trans installs
    · exact ⟨op, under, installs⟩
  cases steps taken with
  | lock top | unlock top | ret top | pahoRet top => exact .inl (old (below top) member)
  | exec top executed =>
      refine .inl (old (fun among => ?_) member)
      rcases List.mem_append.mp among with new | under
      · exact ⟨_, top ▸ List.mem_cons_self, exec_installs executed new installs⟩
      · exact below top under
  | @native native host args r callable invoked fresh =>
      rw [enterNative_stack] at member
      by_cases native : op ∈ native.statements host (frame args) r
      · exact .inr ⟨_, host, args, r, invoked, rfl, native⟩
      · refine .inl (old (fun among => ?_) member)
        exact ⟨op, (List.mem_append.mp among).resolve_left native, installs⟩
  | @entered call callable =>
      refine .inl (old (pushed fun next among => ?_) member)
      cases is : next.installs with
      | none => rfl
      | some handler => cases (uses_body next among).symm.trans (ThreadOp.uses_of_installs is)
  | @callback u client callback receptive known =>
      refine .inl (old (pushed fun next among => ?_) member)
      have producer := PahoCallback.producing_statements next among
      cases next <;> first | rfl | cases producer
  | dispatch away => exact .inl (old (pushed (by simp [ThreadOp.installs])) member)

theorem step_attributed {action : ThreadAction n} (taken : s.step action = some s')
    (attributed : s.Attributed) : s'.Attributed := by
  have tracked := attributed.tracked
  have carried {type : CallbackType} {handler : BoundHandler} {object : ObjectId}
      (before : handler.type = type ∧ s.Belongs handler.handle object) :
      handler.type = type ∧ s'.Belongs handler.handle object :=
    ⟨before.1, step_belongs tracked taken before.2⟩
  refine ⟨step_tracked taken tracked, fun found installed => ?_, fun member installs => ?_⟩
  · rcases handler_of_step tracked taken found installed with ⟨before, was, same⟩ | ⟨t, stored⟩
    · exact carried (attributed.installed was same)
    · exact carried (attributed.pending stored rfl)
  · rcases installs_of_step taken member installs with ⟨u, other, among, same⟩ | entered
    · exact carried (attributed.pending among same)
    · rcases entered with ⟨native, host, args, r, invoked, rfl, new⟩
      obtain ⟨rfl, pending⟩ := installs_native new installs
      exact ⟨rfl, belongs_constructed tracked (Native.returns invoked) pending⟩

theorem attributed_initial : (initial : Threads P n).Attributed where
  tracked := tracked_initial
  installed found := nomatch found
  pending member := absurd member List.not_mem_nil

theorem run_attributed {actions : List (ThreadAction n)} (attributed : s.Attributed)
    (belongs : s.Belongs handle object) (ran : Transition.run step s actions = some s') :
    s'.Attributed ∧ s'.Belongs handle object := by
  let inv := fun s : Threads P n => s.Attributed ∧ s.Belongs handle object
  have kept : ∀ {s action s'}, True → s.step action = some s' → inv s → inv s' :=
    fun _ taken before =>
      ⟨step_attributed taken before.1, step_belongs before.1.tracked taken before.2⟩
  have last : inv s' :=
    Transition.run_invariant kept ran (fun _ _ => True.intro) ⟨attributed, belongs⟩
  exact last

end Threads

theorem BoundHandler.invoke_type (handler : BoundHandler) (notification : Notification) :
    (handler.invoke notification).event.type = handler.type := by
  rcases handler with ⟨type, handle⟩
  cases type <;> rfl

/-- **Events reach the client they come from.**  A callback of a client, or a disconnect request
for it that Paho refuses, copies a handler, on any thread.  The event this handler makes is of the
kind of the callback, and in every later state, whatever was constructed, destroyed or reset in
between, a forward is executed for it only if it is the one that this very client then has for
that kind, under the handle in the event. -/
theorem events_reach_own_client {P : PahoOptions} {n : Nat} {before after : List (ThreadAction n)}
    {s s' : Threads P n} {object : ObjectId} {type : CallbackType} {notification : Notification}
    {handler : BoundHandler} (ran : Transition.run Threads.step .initial before = some s)
    (copied : ((s.shared.client object).bind fun client => client.base.copyHandler type) =
      some handler)
    (later : Transition.run Threads.step s after = some s') :
    (handler.invoke notification).event.type = type ∧
    ∀ id args, executeCallback s'.shared.globals.clients (handler.invoke notification).event =
        some (id, args) →
      s'.shared.objectAt (handler.invoke notification).event.handle = some object ∧
        ∃ client, s'.shared.client object = some client ∧ client.forwardId type = id := by
  have attributed : s.Attributed := Transition.run_invariant
    (fun {_ _ _} (_ : True) taken => Threads.step_attributed taken) ran (fun _ _ => True.intro)
    Threads.attributed_initial
  obtain ⟨client, found, copy⟩ := Option.bind_eq_some_iff.mp copied
  have installed : client.base.handler type = some handler := by
    unfold MqttClient.copyHandler at copy
    split at copy
    · cases copy
    · exact copy
  obtain ⟨kind, belongs⟩ := attributed.installed found installed
  obtain ⟨attributed', belongs'⟩ := Threads.run_attributed attributed belongs later
  refine ⟨(handler.invoke_type notification).trans kind, fun id args executed => ?_⟩
  obtain ⟨receiver, live, forward, _⟩ := executeCallback_eq_some_iff.mp executed
  rw [BoundHandler.invoke_handle] at live ⊢
  rw [BoundHandler.invoke_type, kind] at forward
  have here := Shared.objectAt_of_live live
  have same := belongs'.own here
  exact ⟨same ▸ here, receiver, same ▸ attributed'.tracked.listed.this live, forward⟩

/-- The client is made, its forward is stored, and a worker is about to copy its handler. -/
def copyingConnected : List (ThreadAction 1) :=
  .call (.native .mqttCreate registeringHost [0, 0]) :: List.replicate 17 (.run .game) ++
    [.call (.native .mqttSetConnectedCallback registeringHost [1, 0]), .call .onPluginsLoaded] ++
    List.replicate 4 (.run .game) ++
    [.callback loneWorker 7 (.connected []), .run loneWorker, .run loneWorker, .run loneWorker]

/-- The worker queues the event, and a frame takes it. -/
def takenConnected : List (ThreadAction 1) :=
  List.replicate 9 (.run loneWorker) ++
    .call .processPendingCallbacks :: List.replicate 8 (.run .game)

theorem events_reach_own_client_taken : ∃ s s' : Threads .plain 1,
    Transition.run Threads.step .initial copyingConnected = some s ∧
      s.stack (.worker 0) = [.copyHandler 7 .connected {}, .callbackReturn 7] ∧
      Transition.run Threads.step s takenConnected = some s' ∧
      s'.shared.objectAt 1 = some 7 ∧
        ∃ client, s'.shared.client 7 = some client ∧ client.forwardId .connected = 5 := by
  have first : (Transition.run Threads.step (.initial : Threads .plain 1) copyingConnected).map
      (fun s => (s.stack (.worker 0),
        (s.shared.client 7).bind fun client => client.base.copyHandler .connected)) =
      some ([.copyHandler 7 .connected {}, .callbackReturn 7], some ⟨.connected, 1⟩) := by
    decide +kernel
  have second : (Transition.run Threads.step (.initial : Threads .plain 1)
      (copyingConnected ++ takenConnected)).map
      (fun s => executeCallback s.shared.globals.clients
        (BoundHandler.invoke ⟨.connected, 1⟩ {}).event) = some (some (5, [.cell 1])) := by
    decide +kernel
  obtain ⟨s, ran, here⟩ := Option.map_eq_some_iff.mp first
  obtain ⟨s', whole, executed⟩ := Option.map_eq_some_iff.mp second
  obtain ⟨between, earlier, later⟩ := Transition.run_append.mp whole
  cases ran.symm.trans earlier
  obtain ⟨top, copied⟩ := Prod.mk.inj here
  exact ⟨s, s', ran, top, later, (events_reach_own_client ran copied later).2 _ _ executed⟩

end AmxxMqtt
