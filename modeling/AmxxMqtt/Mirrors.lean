import AmxxMqtt.Uninterrupted

/-!
# The steps of `World` as runs of `Threads`

A native, a statement of the game thread, a Paho callback and a producer's call are one step each
in `World`.  In `Threads` they are what one thread does when it is not disturbed: they end with
the same globals and the same statements left to run.
-/

namespace AmxxMqtt

namespace Threads

variable {P : PahoOptions} {n : Nat} {s s' : Threads P n} {t : Thread n}

/-! ## A native -/

section Native

variable {native : Native} {host : Host} {params : List Cell} {r : NativeReturn P}

theorem modifyBase_of_unlisted {shared : Shared P} {object : ObjectId} {client : AmxxMqttClient}
    {f : MqttClient BoundHandler → MqttClient BoundHandler}
    (absent : shared.handleOf object = none)
    (found : shared.unlisted.lookup object = some client) :
    shared.modifyBase object f = { shared with
      unlisted := shared.unlisted.insert object { client with base := f client.base } } := by
  simp only [Shared.modifyBase, Shared.client, absent, found, Shared.setClient]

theorem globals_modifyBase {shared : Shared P} {object : ObjectId}
    {f : MqttClient BoundHandler → MqttClient BoundHandler}
    (absent : shared.handleOf object = none) :
    (shared.modifyBase object f).globals = shared.globals := by
  unfold Shared.modifyBase
  split
  · simp only [Shared.setClient, absent]
  · rfl

/-- What a `make` that succeeds does to the manager. -/
theorem clients_of_make {mgr clients : MqttClientMgr} {object : ObjectId} {handle : Int}
    (made : mgr.make (.ok object) = (.ok handle, clients)) :
    clients = ⟨MqttClientMgr.emplace handle (MqttClientMgr.bound object handle) mgr.clients,
      (mgr.nextHandle + 1) % 2 ^ 64⟩ := by
  unfold MqttClientMgr.make at made
  split at made
  · cases (Prod.mk.inj made).1
  · split at made
    · cases (Prod.mk.inj made).1
    · obtain ⟨same, table⟩ := Prod.mk.inj made
      rw [← Except.ok.inj same]
      exact table.symm

/-- The construction of a client, from the bare object to the manager's table. -/
theorem does_create {shared : Shared P} {object : ObjectId} {handle : Int} {clients : MqttClientMgr}
    (absent : shared.handleOf object = none)
    (found : shared.unlisted.lookup object = some { object })
    (made : shared.globals.clients.make (.ok object) = (.ok handle, clients)) :
    ∃ shared', Does t (Effect.statements (P := P) .mqttCreate host params handle
        (.constructed object)) shared [] shared' ∧
      shared'.globals = { shared.globals with clients } := by
  have bind (unlisted : AList fun _ : ObjectId => AmxxMqttClient) (client : AmxxMqttClient)
      (type : CallbackType) :
      ({ shared with unlisted := unlisted.insert object client } : Shared P).modifyBase object
          (MqttClient.setHandler type (some ⟨type, handle⟩)) =
        { shared with
          unlisted := unlisted.insert object
            ({ client with base := client.base.setHandler type (some ⟨type, handle⟩) }) } := by
    have still : ({ shared with unlisted := unlisted.insert object client } :
        Shared P).handleOf object = none := absent
    rw [modifyBase_of_unlisted still (AList.lookup_insert _), AList.insert_insert]
  have first := modifyBase_of_unlisted (f := MqttClient.setHandler .connected
    (some ⟨.connected, handle⟩)) absent found
  have emplaced : (ThreadOp.emplace handle object).exec { shared with
      unlisted := shared.unlisted.insert object (MqttClientMgr.bound object handle) } =
      some ({ shared with
        globals := { shared.globals with clients }
        unlisted := (shared.unlisted.insert object (MqttClientMgr.bound object handle)).erase
          object }, []) := by
    simp only [ThreadOp.exec, AList.lookup_insert, clients_of_make made]
  refine ⟨{ shared with
      globals := { shared.globals with clients }
      unlisted := (shared.unlisted.insert object (MqttClientMgr.bound object handle)).erase
        object }, ?_, rfl⟩
  refine Does.setHandler ?_
  rw [first]
  refine Does.setHandler ?_
  rw [bind]
  refine Does.setHandler ?_
  rw [bind]
  refine Does.setHandler ?_
  rw [bind]
  exact Does.exec emplaced .done

theorem getD_of_getElem? {index : Nat} {cell : Cell} (arg : params[index]? = some cell) :
    params.getD index 0 = cell := by
  rw [List.getD_eq_getElem?_getD, arg, Option.getD_some]

/-- A native that makes one request: the request, what follows it, and the error logged. -/
theorem statements_of_request {native : Native} {value : Cell} {globals : Globals P}
    {object : ObjectId} {asked : PahoRequest P} {others : List (Effect P)}
    (requests : native ≠ .mqttCreateConnectOptions) :
    native.statements host params
        { value, globals, effects := .request object asked :: others } =
      .paho object asked.operation :: (native.afterRequest host params object ++
        others.flatMap (Effect.statements native host params value)) := by
  cases native <;> first | exact absurd rfl requests | exact List.append_nil _

theorem does_makeOptions {shared : Shared P} {failure : Option (OptionsStage × Thrown)}
    {value : Except Thrown Int} {options : ConnectOptionMgr P}
    (result : ConnectOptionMgr.MakeResult failure shared.globals.options (value, options)) :
    ∃ shared', Does t [.makeOptions failure] shared [] shared' ∧
      shared'.globals = { shared.globals with options } := by
  refine ⟨_, Does.makeOptions .done, ?_⟩
  rw [result.make_eq]
  rfl

theorem living (asked : PahoRequest P) : asked.operation ≠ .destroy := by
  cases asked <;> simp [PahoRequest.operation]

theorem ne_of_requests {native : Native} (kind : native.requests = true) :
    native ≠ .mqttCreateConnectOptions := by
  intro same
  subst same
  cases kind

theorem afterRequest_of_requests {native : Native} {object : ObjectId}
    (kind : native.requests = true) : native.afterRequest host params object = [] := by
  cases native <;> first | rfl | cases kind

/-- A copied handler adds to the queue. -/
theorem globals_notified {shared : Shared P} {object : ObjectId} {client : AmxxMqttClient}
    {type : CallbackType} {notification : Notification}
    (this : shared.client object = some client) :
    (Does.notified object type notification shared).globals = { shared.globals with
      queue := match client.base.copyHandler type with
        | some handler =>
            shared.globals.queue.enqueueCallback (handler.invoke notification).event
        | none => shared.globals.queue } := by
  simp only [Does.notified, this, Option.bind_some]
  cases client.base.copyHandler type <;> rfl

theorem does_native {r : NativeReturn P} (listed : s.shared.Listed)
    (returns : Returns host params s.shared.globals native r)
    (fresh : ∀ object ∈ r.objects, object ∉ s.shared.constructed) :
    ∃ shared', Does (.game : Thread n) (native.statements host params r)
        (s.enterNative native host params r).shared
        (r.removed.toList.map fun client => .destroyClient client.object) shared' ∧
      shared'.globals = r.globals := by
  have after := enterNative_listed listed returns fresh
  cases returns with
  | @rejected native error known unsent full looked =>
      by_cases options : native = .mqttCreateConnectOptions
      · subst options
        exact does_makeOptions (.full (full rfl))
      · have logs : native.statements host params (rejection s.shared.globals error) =
            [.foreign] := by
          cases native <;> first | rfl | exact absurd rfl options
        have same : native.entered s.shared.globals (rejection s.shared.globals error) =
            s.shared.globals := by
          cases native <;> rfl
        rw [logs]
        exact ⟨_, Does.foreign .done, same⟩
  | @created handle object clients made =>
      have absent := (after.unlisted (AList.lookup_insert _)).2.2
      have created : ∃ shared', Does (.game : Thread n) (Effect.statements .mqttCreate host params
          handle (.constructed object)) _ [] shared' ∧ _ :=
        does_create absent (AList.lookup_insert _) made
      exact created
  | @destroyed handle arg =>
      exact ⟨_, .done, rfl⟩
  | connectUnknown arg optionsArg live dead => exact ⟨_, Does.foreign .done, rfl⟩
  | connected arg optionsArg live found accepted =>
      refine ⟨_, Does.request (living _) (.exec rfl .done), ?_⟩
      rw [← getD_of_getElem? optionsArg]
      rfl
  | connectThrew arg optionsArg live found threw =>
      refine ⟨_, Does.request (living _) (.exec rfl (.foreign .done)), ?_⟩
      rw [← getD_of_getElem? optionsArg]
      rfl
  | disconnectSent arg live accepted =>
      rw [statements_of_request (by simp)]
      simp only [Native.afterRequest, accepted]
      exact ⟨_, Does.request (living _) .done, rfl⟩
  | @disconnectQuiet handle client exception arg live threw silent =>
      rw [statements_of_request (by simp)]
      simp only [Native.afterRequest, threw]
      refine ⟨_, Does.request (living _) (.callHandler .done), ?_⟩
      refine (globals_notified (listed.this live)).trans ?_
      rw [silent]
  | @disconnectThrew handle client exception handler arg live threw copied =>
      rw [statements_of_request (by simp)]
      simp only [Native.afterRequest, threw]
      refine ⟨_, Does.request (living _) (.callHandler .done), ?_⟩
      refine (globals_notified (listed.this live)).trans ?_
      rw [copied]
  | isConnected arg live => exact ⟨_, .done, rfl⟩
  | @requested native object asked kind accepted =>
      rw [statements_of_request (ne_of_requests kind), afterRequest_of_requests kind]
      refine ⟨_, Does.request (living _) .done, ?_⟩
      cases native <;> rfl
  | @requestThrew native object asked exception kind threw =>
      rw [statements_of_request (ne_of_requests kind), afterRequest_of_requests kind]
      refine ⟨_, Does.request (living _) (.foreign .done), ?_⟩
      cases native <;> rfl
  | @stored native type handle name client id kind arg nameArg live registered valid =>
      have nothing : native.statements host params
          { value := 1
            globals := { s.shared.globals with
              clients := s.shared.globals.clients.setClient handle (client.setForwardId type id).1 }
            effects := .registered id type.signature ::
              (client.setForwardId type id).2.map .unregistered } = [] := by
        cases native <;> cases kind
        all_goals simp [Native.statements, Effect.statements, List.flatMap_map]
      rw [nothing]
      refine ⟨_, .done, ?_⟩
      cases native <;> cases kind
      all_goals simp [enterNative, push, Native.entered, Effect.precedes, Shared.unlist]
  | optionsMade free built => exact does_makeOptions (.made free built)
  | optionsFailed free failed => exact does_makeOptions (.failed free failed)
  | setUnknown count arg dead => exact ⟨_, Does.foreign .done, rfl⟩
  | set arg nameArg valueArg named found => exact ⟨_, .done, rfl⟩

end Native

/-! ## A statement of the game thread -/

theorem does_tick {w w' : World P} {shared : Shared P} (ticked : w.tick = some w')
    (same : shared.globals = w.globals)
    (removed : ∀ client, .destruct client ∈ w.stack → shared.handleOf client.object = none) :
    ∃ shared', Does (.game : Thread n) (w.stack.map GameOp.statement) shared
        (w'.stack.map GameOp.statement) shared' ∧
      shared'.globals = w'.globals := by
  cases World.steps_of_tick ticked with
  | start top | stop top =>
      rw [top, ← same]
      exact ⟨_, .exec rfl (.guarded rfl rfl .done), rfl⟩
  | resetClients top =>
      rw [top, ← same, List.map_append, List.map_map]
      exact ⟨_, .exec rfl .done, rfl⟩
  | @destruct client rest top =>
      have absent := removed client (top ▸ List.mem_cons_self)
      rw [top]
      exact ⟨_, .destroyClient .done, (globals_modifyBase absent).trans same⟩
  | resetOptions top | hook top | unhook top =>
      rw [top, ← same]
      exact ⟨_, .exec rfl .done, rfl⟩
  | process top =>
      rw [top, ← same]
      exact ⟨_, .exec rfl (.guarded rfl rfl .done), rfl⟩
  | @drained remaining rest top ended =>
      rw [top]
      cases remaining with
      | zero => exact ⟨_, .exec rfl .done, same⟩
      | succ remaining =>
          have empty : shared.globals.queue.takeFront = none := by
            rw [same]
            exact ended.resolve_left (Nat.succ_ne_zero _)
          have left : (ThreadOp.takeFront remaining).exec shared =
              some (shared, [.unlock .callbackMutex]) := by
            simp only [ThreadOp.exec, empty]
          exact ⟨_, .exec rfl (.guarded left rfl .done), same⟩
  | @take remaining event queue offer provenance rest top popped front =>
      rw [top]
      rw [← same] at popped
      have taken : (ThreadOp.takeFront remaining).exec shared = some (shared.setQueue queue,
          [.unlock .callbackMutex, .executeCallback event, .drain remaining]) := by
        simp only [ThreadOp.exec, popped]
      refine ⟨_, .exec rfl (.guarded taken rfl .done), ?_⟩
      rw [← same]
      rfl
  | @execute event offer id args rest top found =>
      rw [top]
      rw [← same] at found
      have executed : (ThreadOp.executeCallback event).exec shared = some (shared, [.foreign]) := by
        simp only [ThreadOp.exec, found]
      exact ⟨_, .exec executed .done, same⟩
  | @discard event offer rest top found =>
      rw [top]
      rw [← same] at found
      have executed : (ThreadOp.executeCallback event).exec shared = some (shared, []) := by
        simp only [ThreadOp.exec, found]
      exact ⟨_, .exec executed .done, same⟩

/-! ## A Paho callback -/

section Callback

variable {shared : Shared P} {handle : Int} {client : AmxxMqttClient} {callback : PahoCallback}

theorem receive_globals {w : World P} {producer : Producer} {object : ObjectId}
    (live : w.globals.clients.getClient handle = some client) :
    (w.receive producer handle object callback).globals = { w.globals with
      clients := World.received w.globals.clients handle callback
      queue := match client.base.copyHandler callback.type with
        | some handler =>
            w.globals.queue.enqueueCallback (handler.invoke callback.notification).event
        | none => w.globals.queue } := by
  simp only [World.receive, World.invoked, live, Option.getD_some, MqttClient.receive_eq]
  cases client.base.copyHandler callback.type <;> rfl

/-- What the callback stores, the manager's client has. -/
theorem stored_globals (callback : PahoCallback) (listed : shared.Listed)
    (live : shared.globals.clients.getClient handle = some client) :
    ∃ clients, (Does.stored client.object callback shared).globals =
        { shared.globals with clients } ∧
      (Does.stored client.object callback shared).client client.object =
        some { client with base := (client.base.receive callback).1 } ∧
      ∀ other, clients.getClient other =
        (World.received shared.globals.clients handle callback).getClient other := by
  have place := listed.handleOf (Shared.objectAt_of_live live)
  have this := listed.this live
  unfold Does.stored World.received
  simp only [live, MqttClient.receive_eq]
  cases callback.stored with
  | none =>
      refine ⟨_, rfl, this, fun other => ?_⟩
      simp only [MqttClientMgr.setClient, MqttClientMgr.getClient, Table.lookup_insert_iff]
      split
      · rename_i same
        rw [same]
        exact live
      · rfl
  | some value =>
      let written : AmxxMqttClient :=
        { client with base := { client.base with isConnected := value } }
      have stores : shared.modifyBase client.object
          (fun base => { base with isConnected := value }) = { shared with
            globals := { shared.globals with
              clients := shared.globals.clients.setClient handle written } } := by
        simp only [Shared.modifyBase, this, Shared.setClient, place]
        rfl
      have kept := listed.modifyBase client.object fun base => { base with isConnected := value }
      rw [stores] at kept
      simp only [stores]
      exact ⟨_, rfl, kept.this (AList.lookup_insert _), fun _ => rfl⟩

end Callback

/-! ## Steps that mirror each other -/

/-- No thread is in the middle of an operation, and the game thread has the same left to run. -/
structure Mirrors (s : Threads P n) (w : World P) : Prop where
  undisturbed : s.Undisturbed .game
  globals : s.shared.globals = w.globals
  stack : s.stack .game = w.stack.map GameOp.statement

namespace Mirrors

variable {w w' : World P}

theorem initial : (Threads.initial : Threads P n).Mirrors World.initial :=
  ⟨⟨fun _ => rfl, fun _ _ _ => List.not_mem_nil⟩, rfl, rfl⟩

theorem callable (mirrors : s.Mirrors w) (outside : w.outside = true) : s.callable = true := by
  unfold World.outside at outside
  unfold Threads.callable
  rw [mirrors.stack]
  split at outside
  · rename_i empty
    rw [empty]
    rfl
  · rename_i away
    rw [away]
    rfl
  · cases outside

/-- Pawn calls a native: it is run to its end, but for the destruction of a client it has taken
out of the manager. -/
theorem native (mirrors : s.Mirrors w) (listed : s.shared.Listed) {native : Native} {host : Host}
    {args : List Cell} (taken : w.step (.call (.native native host args)) = some w')
    (fresh : ∀ {r}, native.invoke host (frame args) w.globals = .ok r →
      ∀ object ∈ r.objects, object ∉ s.shared.constructed) :
    ∃ entered s', s.step (.call (.native native host args)) = some entered ∧
      Uninterrupted .game entered s' ∧ s'.Mirrors w' := by
  cases World.steps taken with
  | @native _ _ _ r outside invoked admitted =>
      have unused := fresh invoked
      rw [← mirrors.globals] at invoked
      obtain ⟨shared', does, globals⟩ := does_native listed (Native.returns invoked) unused
      let entered := s.enterNative native host (frame args) r
      let s' := entered.resume .game shared'
        ((r.removed.toList.map fun client => .destroyClient client.object) ++ s.stack .game)
      have undisturbed : entered.Undisturbed .game := mirrors.undisturbed.resume _ _
      have enters : s.step (.call (.native native host args)) = some entered := by
        simp only [step, mirrors.callable outside, enter, invoked, if_pos unused, ↓reduceIte]
        rfl
      have top : entered.stack .game =
          native.statements host (frame args) r ++ s.stack .game := by
        rw [enterNative_stack, Function.update_self]
      have runs : Uninterrupted .game entered s' := does entered _ undisturbed rfl top
      refine ⟨entered, s', enters, runs, undisturbed.resume _ _, ?_, ?_⟩
      · rw [World.returned_globals]
        exact globals
      · rw [World.returned_stack, List.map_append, List.map_map, ← mirrors.stack]
        exact resume_stack ..
  | entered outside plain => exact absurd rfl (plain _ _ _)

/-- The engine, AMXX or a user of the dispatcher enters the module. -/
theorem call (mirrors : s.Mirrors w) {call : GameCall}
    (plain : ∀ native host args, call ≠ .native native host args)
    (taken : w.step (.call call) = some w') :
    ∃ s', s.step (.call call) = some s' ∧ s'.Mirrors w' := by
  have pushed : s.step (.call call) = some (s.push .game (call.body.map GameOp.statement)) := by
    simp only [World.step] at taken
    split at taken
    · rename_i outside
      simp only [step, mirrors.callable outside, ↓reduceIte]
      cases call with
      | native native host args => exact absurd rfl (plain native host args)
      | onServerFrame =>
          simp only [World.enter] at taken
          split at taken
          · cases taken
          · rename_i hooked
            rw [← mirrors.globals] at hooked
            exact if_neg hooked
      | _ => rfl
    · cases taken
  cases World.steps taken with
  | native outside invoked admitted => exact absurd rfl (plain _ _ _)
  | entered outside _ =>
      refine ⟨_, pushed, mirrors.undisturbed.resume _ _, mirrors.globals, ?_⟩
      rw [List.map_append, ← mirrors.stack, push_stack, Function.update_self]

/-- The code outside the module returns. -/
theorem ret (mirrors : s.Mirrors w) (taken : w.step .ret = some w') :
    ∃ s', s.step (.ret .game) = some s' ∧ s'.Mirrors w' := by
  cases World.steps taken with
  | @ret rest top =>
      have foreign : s.stack .game = .foreign :: rest.map GameOp.statement := by
        rw [mirrors.stack, top]
        rfl
      refine ⟨_, ?_, mirrors.undisturbed.resume s.shared _, mirrors.globals, resume_stack ..⟩
      simp only [step, Threads.ret, foreign]
      rfl

/-- The game thread runs a statement to its end. -/
theorem tick (mirrors : s.Mirrors w) (taken : w.step .tick = some w')
    (removed : ∀ client, .destruct client ∈ w.stack → s.shared.handleOf client.object = none) :
    ∃ s', Uninterrupted .game s s' ∧ s'.Mirrors w' := by
  obtain ⟨shared', does, globals⟩ := does_tick taken mirrors.globals removed
  have whole : s.stack .game = w.stack.map GameOp.statement ++ [] := by
    rw [List.append_nil, mirrors.stack]
  refine ⟨_, does s [] mirrors.undisturbed rfl whole, mirrors.undisturbed.resume _ _, globals, ?_⟩
  rw [resume_stack, List.append_nil]

/-- A worker calls a producer entry point. -/
theorem dispatch (mirrors : s.Mirrors w) {i : Fin n} {call : DispatcherCall}
    (away : s.away (.worker i) = true) (taken : w.step (.dispatch i call) = some w') :
    ∃ entered s', s.step (.dispatch (.worker i) call) = some entered ∧
      Uninterrupted (.worker i) entered s' ∧ s'.Mirrors w' := by
  cases taken
  have does : Does (.worker i) [.enqueueCallback call.event] s.shared [] _ :=
    Does.enqueueCallback .done
  refine ⟨_, _, if_pos away, does.pushed mirrors.undisturbed.of_game,
    mirrors.undisturbed.share _, ?_, mirrors.stack⟩
  show ({ s.shared.globals with queue := _ } : Globals P) = _
  rw [mirrors.globals]
  rfl

/-- Paho runs a callback of a client the manager has.  `World` writes the client back also when
the callback stores nothing, so the tables agree in what they have for each handle. -/
theorem callback (mirrors : s.Mirrors w) (listed : s.shared.Listed) {i : Fin n} {handle : Int}
    {client : AmxxMqttClient} {callback : PahoCallback}
    (receptive : s.receptive (.worker i) = true)
    (live : w.globals.clients.getClient handle = some client)
    (taken : w.step (.callback i handle client.object callback) = some w') :
    ∃ entered s', s.step (.callback (.worker i) client.object callback) = some entered ∧
      Uninterrupted (.worker i) entered s' ∧
      s'.Mirrors { w' with
        globals := { w'.globals with clients := s'.shared.globals.clients } } ∧
      ∀ other, s'.shared.globals.clients.getClient other =
        w'.globals.clients.getClient other := by
  cases World.steps taken with
  | callback made =>
      have here := live
      rw [← mirrors.globals] at here
      have known : (s.shared.client client.object).isSome = true :=
        Option.isSome_of_eq_some (listed.this here)
      obtain ⟨clients, stores, this, lookups⟩ := stored_globals callback listed here
      have same : (client.base.receive callback).1.copyHandler callback.type =
          client.base.copyHandler callback.type := by
        rw [MqttClient.receive_eq]
        rfl
      let shared' := Does.notified client.object callback.type callback.notification
        (Does.stored client.object callback s.shared)
      have does : Does (.worker i) (callback.statements client.object) s.shared [] shared' := by
        rw [← List.append_nil (callback.statements client.object)]
        exact Does.callback .done
      have globals : shared'.globals = { (w.receive (.worker i) handle client.object
          callback).globals with clients } := by
        rw [receive_globals live, ← mirrors.globals, globals_notified this, same, stores]
      refine ⟨_, { s with shared := shared' }, if_pos ⟨receptive, known⟩,
        does.pushed mirrors.undisturbed.of_game,
        ⟨mirrors.undisturbed.share _, ?_, ?_⟩, fun other => ?_⟩
      · rw [globals]
      · rw [World.receive_stack]
        exact mirrors.stack
      · rw [globals, World.receive_clients, ← mirrors.globals]
        exact lookups other

end Mirrors

end Threads

end AmxxMqtt
