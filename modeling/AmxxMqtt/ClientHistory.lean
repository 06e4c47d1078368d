import AmxxMqtt.World

/-!
# The clients over whole runs

`TableChange` sorts native calls by what they do to the client table and to AMXX's forwards.
`ClientsValid` is what every step keeps: the table is the live part of the history of handles,
every live client's handlers are bound to the handle it is live under, and every event offered by
a client carries the handle that client was made under.
-/

namespace AmxxMqtt

variable {P : PahoOptions}

/-! ## What a native does to the clients -/

/-- What a native call does to the client table and to AMXX's forwards. -/
inductive TableChange (host : Host) (params : List Cell) (g : Globals P) (native : Native)
    (r : NativeReturn P) : Prop
  | unchanged (clients : r.globals.clients = g.clients) (removed : r.removed = none)
      (handles : (r.asCall native host params).handleEvents = [])
      (stores : ∀ handle type, (r.asCall native host params).stores handle type = none)
      (forwards : r.effects.filterMap Effect.forwardEvent = [])
  | created {object : ObjectId} {handle : Int}
      (made : g.clients.make (.ok object) = (.ok handle, r.globals.clients))
      (removed : r.removed = none)
      (handles : (r.asCall native host params).handleEvents = [.issued handle object])
      (stores : ∀ handle type, (r.asCall native host params).stores handle type = none)
      (effects : r.effects = [.constructed object])
  | destroyed {handle : Int} (clients : r.globals.clients = (g.clients.destroy handle).2)
      (removed : r.removed = (g.clients.destroy handle).1)
      (handles : (r.asCall native host params).handleEvents = [.retired handle])
      (stores : ∀ handle type, (r.asCall native host params).stores handle type = none)
      (effects : r.effects = [])
  | stored {handle name : Int} {type : CallbackType} {client : AmxxMqttClient} {id : Int}
      (kind : native.callbackType = some type) (arg : params[1]? = some handle)
      (nameArg : params[2]? = some name) (live : g.clients.getClient handle = some client)
      (registered : host.registerSPForwardByName (host.string name) type.signature = id)
      (valid : id ≠ -1)
      (clients : r.globals.clients =
        g.clients.setClient handle (client.setForwardId type id).1)
      (removed : r.removed = none)
      (handles : (r.asCall native host params).handleEvents = [])
      (stores : ∀ other kind, (r.asCall native host params).stores other kind =
        if kind = type ∧ other = handle then some id else none)
      (effects : r.effects = .registered id type.signature ::
        (client.setForwardId type id).2.map .unregistered)

theorem NativeCall.stores_eq_none {call : NativeCall P}
    (plain : ∀ id params effects, call.effects ≠ .registered id params :: effects) (handle : Int)
    (type : CallbackType) : call.stores handle type = none := by
  unfold NativeCall.stores
  split
  · split
    · exact absurd ‹_› (plain _ _ _)
    · rfl
  · rfl

theorem NativeCall.handleEvents_eq_nil {call : NativeCall P}
    (made : call.effects.filterMap Effect.object = []) (kept : call.native ≠ .mqttDestroy) :
    call.handleEvents = [] := by
  unfold NativeCall.handleEvents
  split
  · rw [made, List.map_nil]
  · exact absurd ‹_› kept
  · rfl

theorem Returns.tableChange {host : Host} {params : List Cell} {g : Globals P} {native : Native}
    {r : NativeReturn P} (returns : Returns host params g native r) :
    TableChange host params g native r := by
  cases returns with
  | rejected known unsent full looked =>
      refine .unchanged rfl rfl ?_
        (NativeCall.stores_eq_none (by simp [NativeReturn.asCall, rejection])) rfl
      cases native <;> rfl
  | created made =>
      exact .created made rfl rfl (NativeCall.stores_eq_none (by simp [NativeReturn.asCall])) rfl
  | destroyed arg =>
      refine .destroyed rfl rfl ?_ (NativeCall.stores_eq_none (by simp [NativeReturn.asCall])) rfl
      simp only [NativeCall.handleEvents, NativeReturn.asCall, ↓reduceIte, arg, Option.toList_some,
        List.map_cons, List.map_nil]
  | @stored native type handle name client id kind arg nameArg live registered valid =>
      refine .stored kind arg nameArg live registered valid rfl rfl ?_ (fun other slot => ?_) rfl
      · refine NativeCall.handleEvents_eq_nil ?_ ?_
        · simp [NativeReturn.asCall, Effect.object]
        · intro same
          subst same
          cases kind
      · simp only [NativeCall.stores, NativeReturn.asCall, kind, arg, Option.some.injEq]
        exact if_congr (and_congr eq_comm eq_comm) rfl rfl
  | requested kind accepted =>
      refine .unchanged rfl rfl ?_ (NativeCall.stores_eq_none (by simp [NativeReturn.asCall])) rfl
      cases native <;> first | rfl | cases kind
  | requestThrew kind threw =>
      refine .unchanged rfl rfl ?_ (NativeCall.stores_eq_none (by simp [NativeReturn.asCall])) rfl
      cases native <;> rfl
  | _ =>
      exact .unchanged rfl rfl rfl
        (NativeCall.stores_eq_none (by simp [NativeReturn.asCall, rejection])) rfl

/-- The event a native offers comes from the disconnected handler of a live client. -/
theorem Returns.dispatched {host : Host} {params : List Cell} {g : Globals P} {native : Native}
    {r : NativeReturn P} (returns : Returns host params g native r) {object : ObjectId}
    {call : DispatcherCall} (member : (object, call) ∈ r.effects.filterMap Effect.dispatch) :
    ∃ handle client handler, g.clients.getClient handle = some client ∧ client.object = object ∧
      client.base.copyHandler .disconnected = some handler ∧
      handler.invoke { reasonCode := normalDisconnection } = call := by
  cases returns with
  | @disconnectThrew handle client exception handler arg live threw copied =>
      obtain ⟨rfl, rfl⟩ := Prod.mk.inj (List.mem_singleton.mp member)
      exact ⟨handle, client, handler, live, rfl, copied, rfl⟩
  | stored => simp [Effect.dispatch] at member
  | _ => cases member

/-! ## Handlers -/

/-- The handlers of a client the manager made, and nothing of it is stopped. -/
structure AmxxMqttClient.BoundTo (client : AmxxMqttClient) (handle : Int) : Prop where
  running : client.base.stopping = false
  handlers : ∀ type, client.base.handler type = some ⟨type, handle⟩

theorem MqttClientMgr.bound_boundTo (object : ObjectId) (handle : Int) :
    (MqttClientMgr.bound object handle).BoundTo handle where
  running := rfl
  handlers type := by cases type <;> rfl

/-- A callback of a bound client invokes the one handler of its kind. -/
theorem AmxxMqttClient.BoundTo.receive {client : AmxxMqttClient} {handle : Int}
    (bound : client.BoundTo handle) (callback : PahoCallback) :
    (client.base.receive callback).2 = [⟨callback.type, handle⟩] ∧
      ({ client with base := (client.base.receive callback).1 } : AmxxMqttClient).BoundTo
        handle := by
  rw [MqttClient.receive_eq]
  refine ⟨?_, bound.running, fun type => ?_⟩
  · simp only [MqttClient.copyHandler, bound.running, Bool.false_eq_true, ↓reduceIte,
      bound.handlers, Option.toList_some]
  · rw [← bound.handlers type]
    cases type <;> rfl

/-! ## The invariant -/

structure ClientsValid (w : World P) : Prop where
  tracks : Tracks w.globals.clients (handleLog w.history)
  bound : ∀ {handle client}, w.globals.clients.getClient handle = some client →
    client.BoundTo handle
  sources : ∀ offer ∈ Gate.offered (gateLog w.history), ∀ object, offer.source = some object →
    .issued offer.event.handle object ∈ handleLog w.history

namespace ClientsValid

variable {w t : World P}

theorem initial : ClientsValid (World.initial : World P) where
  tracks := Tracks.initial
  bound found := by cases found
  sources _ member := by cases member

/-- Steps that change neither the table nor the offers. -/
theorem of_quiet (valid : ClientsValid w)
    (clients : t.globals.clients = w.globals.clients := by rfl)
    (handles : handleLog t.history = handleLog w.history := by rfl)
    (offers : Gate.offered (gateLog t.history) = Gate.offered (gateLog w.history) := by rfl) :
    ClientsValid t where
  tracks := by rw [clients, handles]; exact valid.tracks
  bound found := valid.bound (by rwa [clients] at found)
  sources := by rw [offers, handles]; exact valid.sources

/-- An offer whose source, if it has one, was made under the handle the event carries. -/
theorem record (valid : ClientsValid w) {producer : Producer} {source : Option ObjectId}
    {call : DispatcherCall}
    (made : ∀ object, source = some object →
      .issued call.event.handle object ∈ handleLog w.history) :
    ClientsValid (w.record producer source call) where
  tracks := valid.tracks
  bound := valid.bound
  sources offer member object same := by
    rw [World.offered_record] at member
    rcases List.mem_append.mp member with earlier | last
    · exact valid.sources offer earlier object same
    · rw [List.mem_singleton.mp last] at same ⊢
      exact made object same

theorem offer (valid : ClientsValid w) {producer : Producer} {source : Option ObjectId}
    {call : DispatcherCall}
    (made : ∀ object, source = some object →
      .issued call.event.handle object ∈ handleLog w.history) :
    ClientsValid (w.offer producer source call) := by
  have queued : ClientsValid { w with
      globals := { w.globals with queue := w.globals.queue.enqueueCallback call.event } } :=
    valid.of_quiet
  exact queued.record made

theorem offerAll (valid : ClientsValid w) {producer : Producer} {source : Option ObjectId}
    {calls : List DispatcherCall}
    (made : ∀ call ∈ calls, ∀ object, source = some object →
      .issued call.event.handle object ∈ handleLog w.history) :
    ClientsValid (w.offerAll producer source calls) := by
  induction calls generalizing w with
  | nil => exact valid
  | cons call calls ih =>
      exact ih (valid.offer (made call List.mem_cons_self))
        fun other member => made other (List.mem_cons_of_mem _ member)

/-- A Paho callback stores a flag in a live client and offers one event with its handle. -/
theorem receive (valid : ClientsValid w) {producer : Producer} {handle : Int} {object : ObjectId}
    {callback : PahoCallback} (made : .issued handle object ∈ handleLog w.history) :
    ClientsValid (w.receive producer handle object callback) := by
  have target : ((w.globals.clients.getClient handle).getD
      (MqttClientMgr.bound object handle)).BoundTo handle := by
    cases live : w.globals.clients.getClient handle with
    | none => exact MqttClientMgr.bound_boundTo object handle
    | some client => exact valid.bound live
  have flagged : ClientsValid { w with globals := { w.globals with
      clients := World.received w.globals.clients handle callback } } := by
    unfold World.received
    split
    · rename_i client live
      refine ⟨valid.tracks.setClient live rfl, fun {other found} here => ?_, valid.sources⟩
      simp only [MqttClientMgr.setClient, MqttClientMgr.getClient, Table.lookup_insert_iff] at here
      split at here
      · rename_i same
        cases here
        exact same ▸ ((valid.bound live).receive callback).2
      · exact valid.bound here
    · exact valid
  refine offerAll flagged fun call member source same => ?_
  cases same
  obtain ⟨handler, isInvoked, rfl⟩ := List.mem_map.mp member
  rw [World.invoked, (target.receive callback).1, List.mem_singleton] at isInvoked
  rw [isInvoked, BoundHandler.invoke_handle]
  exact made

theorem recordAll (valid : ClientsValid w) {dispatches : List (ObjectId × DispatcherCall)}
    (made : ∀ object call, (object, call) ∈ dispatches →
      .issued call.event.handle object ∈ handleLog w.history) :
    ClientsValid (w.recordAll dispatches) := by
  induction dispatches generalizing w with
  | nil => exact valid
  | cons dispatch dispatches ih =>
      rcases dispatch with ⟨object, call⟩
      refine ih (valid.record ?_) fun other later member => ?_
      · rintro _ ⟨⟩
        exact made object call List.mem_cons_self
      · exact made other later (List.mem_cons_of_mem _ member)

theorem returned (valid : ClientsValid w) {native : Native} {host : Host} {params : List Cell}
    {r : NativeReturn P} (returns : Returns host params w.globals native r) :
    ClientsValid (w.returned native host params r) := by
  have called : ClientsValid { w with
      globals := r.globals
      forwards := r.effects.foldl World.applyEffect w.forwards
      stack := r.removed.toList.map .destruct ++ w.stack
      history := .native (r.asCall native host params) :: w.history } := by
    cases returns.tableChange with
    | unchanged clients removed handles stores forwards =>
        refine valid.of_quiet clients ?_
        simp only [handleLog_cons, WorldEvent.handleEvents, handles, List.nil_append]
    | created made removed handles stores effects =>
        obtain ⟨_, table, _, tracks⟩ := valid.tracks.make made
        refine ⟨?_, fun {other found} here => ?_, fun offer member object same => ?_⟩
        · simp only [handleLog_cons, WorldEvent.handleEvents, handles]
          exact tracks
        · simp only [MqttClientMgr.getClient, table, Table.lookup_insert_iff] at here
          split at here
          · rename_i same
            cases here
            exact same ▸ MqttClientMgr.bound_boundTo _ _
          · exact valid.bound here
        · exact List.mem_append_right _ (valid.sources offer member object same)
    | @destroyed handle clients removed handles stores effects =>
        refine ⟨?_, fun {other found} here => ?_, fun offer member object same => ?_⟩
        · simp only [handleLog_cons, WorldEvent.handleEvents, handles, clients]
          exact valid.tracks.destroy handle
        · simp only [clients, MqttClientMgr.destroy, MqttClientMgr.getClient,
            Table.lookup_erase_iff] at here
          split at here
          · cases here
          · exact valid.bound here
        · exact List.mem_append_right _ (valid.sources offer member object same)
    | @stored handle _ type client id _ _ _ live _ _ clients removed handles stores effects =>
        refine ⟨?_, fun {other found} here => ?_, fun offer member object same => ?_⟩
        · simp only [handleLog_cons, WorldEvent.handleEvents, handles, clients]
          exact valid.tracks.setClient live (AmxxMqttClient.setForwardId_object _ _ _)
        · simp only [clients, MqttClientMgr.setClient, MqttClientMgr.getClient,
            Table.lookup_insert_iff] at here
          split at here
          · rename_i same
            cases here
            have bound := valid.bound live
            exact same ▸ ⟨by rw [AmxxMqttClient.setForwardId_base]; exact bound.running,
              fun kind => by rw [AmxxMqttClient.setForwardId_base]; exact bound.handlers kind⟩
          · exact valid.bound here
        · exact List.mem_append_right _ (valid.sources offer member object same)
  refine called.recordAll fun object call member => ?_
  obtain ⟨handle, client, handler, live, rfl, copied, rfl⟩ := returns.dispatched member
  have bound := valid.bound live
  rw [MqttClient.copyHandler, bound.running, if_neg (by simp), bound.handlers] at copied
  cases copied
  rw [BoundHandler.invoke_handle]
  exact List.mem_append_right _ (valid.tracks.issued_of_getClient live)

theorem step {action : Action} (stepped : w.step action = some t) (valid : ClientsValid w) :
    ClientsValid t := by
  cases World.steps stepped with
  | native outside invoked admitted => exact valid.returned (Native.returns invoked)
  | callback made => exact valid.receive made
  | dispatch =>
      refine valid.offer fun object same => ?_
      cases same
  | resetClients top =>
      refine ⟨valid.tracks.reset, fun found => ?_, fun offer member object same => ?_⟩
      · cases found
      · exact List.mem_cons_of_mem _ (valid.sources offer member object same)
  | entered | ret | start | stop | destruct | resetOptions | hook | unhook | process | drained
  | take | execute | discard => exact valid.of_quiet

end ClientsValid

end AmxxMqtt
