import AmxxMqtt.ClientHistory

/-!
# Forwards over whole runs

A forward the module registered is held in a slot of a client, of a live one or of one whose
destructor has still to run, or it was overwritten there without being unregistered.
`ForwardsValid` keeps this account together with what AMXX holds for the module, and `SlotsValid`
relates the slots to the history.
-/

namespace AmxxMqtt

variable {P : PahoOptions}

/-! ## Slots -/

/-- A slot of a live client holds the id last stored there, and nothing is stored for a handle
that was not issued. -/
structure SlotsValid (w : World P) : Prop where
  stored : ∀ {handle client} type, w.globals.clients.getClient handle = some client →
    client.forwardId type = (lastStored w.history handle type).getD (-1)
  issued : ∀ {handle type id}, lastStored w.history handle type = some id →
    handle ∈ Names.names (handleLog w.history)

/-- A Paho callback leaves a client its forwards. -/
theorem World.getClient_received {clients : MqttClientMgr} {handle other : Int}
    {callback : PahoCallback} {client : AmxxMqttClient}
    (found : (received clients handle callback).getClient other = some client) :
    ∃ old, clients.getClient other = some old ∧
      ∀ type, client.forwardId type = old.forwardId type := by
  unfold received at found
  split at found
  · rename_i before live
    simp only [MqttClientMgr.setClient, MqttClientMgr.getClient, Table.lookup_insert_iff] at found
    split at found
    · rename_i same
      cases found
      exact ⟨before, same ▸ live, fun type => by cases type <;> rfl⟩
    · exact ⟨client, found, fun _ => rfl⟩
  · exact ⟨client, found, fun _ => rfl⟩

namespace SlotsValid

variable {w t : World P}

theorem initial : SlotsValid (World.initial : World P) where
  stored _ found := by cases found
  issued found := by cases found

theorem of_quiet (valid : SlotsValid w)
    (clients : ∀ {handle client}, t.globals.clients.getClient handle = some client →
      ∃ old, w.globals.clients.getClient handle = some old ∧
        ∀ type, client.forwardId type = old.forwardId type)
    (last : ∀ handle type, lastStored t.history handle type = lastStored w.history handle type)
    (handles : handleLog w.history <:+ handleLog t.history) : SlotsValid t where
  stored type found := by
    obtain ⟨old, live, same⟩ := clients found
    rw [same, last]
    exact valid.stored type live
  issued found := Names.names_mono handles (valid.issued (by rwa [last] at found))

theorem of_same (valid : SlotsValid w) (clients : t.globals.clients = w.globals.clients)
    (last : ∀ handle type, lastStored t.history handle type = lastStored w.history handle type)
    (handles : handleLog t.history = handleLog w.history) : SlotsValid t :=
  valid.of_quiet (fun {_ client} found => ⟨client, clients ▸ found, fun _ => rfl⟩) last
    (handles ▸ List.suffix_refl _)

theorem returned (valid : SlotsValid w) (known : ClientsValid w) {native : Native} {host : Host}
    {params : List Cell} {r : NativeReturn P}
    (returns : Returns host params w.globals native r) :
    SlotsValid (w.returned native host params r) := by
  have handles : handleLog w.history <:+ handleLog (w.returned native host params r).history :=
    World.returned_handleLog ▸ List.suffix_append _ _
  cases returns.tableChange with
  | unchanged clients removed noHandles stores forwards =>
      refine valid.of_same (by rw [World.returned_globals, clients]) (fun handle type => ?_) ?_
      · rw [World.returned_lastStored, stores, Option.none_or]
      · rw [World.returned_handleLog, noHandles, List.nil_append]
  | @created object handle made removed issued stores effects =>
      obtain ⟨next, table, _, _⟩ := known.tracks.make made
      refine ⟨fun {other client} type found => ?_, fun {other type id} found => ?_⟩
      · rw [World.returned_lastStored, stores, Option.none_or]
        simp only [World.returned_globals, MqttClientMgr.getClient, table,
          Table.lookup_insert_iff] at found
        split at found
        · rename_i here
          cases found
          have unset : lastStored w.history other type = none := by
            by_contra set
            obtain ⟨id, set⟩ := Option.ne_none_iff_exists'.mp set
            have below := (known.tracks.issued.mp (valid.issued set)).2
            rw [here, next] at below
            exact Int.lt_irrefl _ below
          rw [unset]
          cases type <;> rfl
        · exact valid.stored type found
      · rw [World.returned_lastStored, stores, Option.none_or] at found
        exact Names.names_mono handles (valid.issued found)
  | destroyed clients removed retired stores effects =>
      refine valid.of_quiet (fun {other client} found => ⟨client, ?_, fun _ => rfl⟩)
        (fun other type => by rw [World.returned_lastStored, stores, Option.none_or]) handles
      simp only [World.returned_globals, clients, MqttClientMgr.destroy, MqttClientMgr.getClient,
        Table.lookup_erase_iff] at found
      split at found
      · cases found
      · exact found
  | @stored handle name type client id kind arg nameArg live registered set clients removed
      noHandles stores effects =>
      refine ⟨fun {other found} slot here => ?_, fun {other slot newest} found => ?_⟩
      · rw [World.returned_lastStored, stores]
        simp only [World.returned_globals, clients, MqttClientMgr.setClient,
          MqttClientMgr.getClient, Table.lookup_insert_iff] at here
        split at here
        · rename_i same
          cases here
          subst same
          rw [AmxxMqttClient.forwardId_setForwardId]
          by_cases replaced : slot = type
          · simp [replaced]
          · simp only [replaced, false_and, ↓reduceIte, Option.none_or]
            exact valid.stored slot live
        · rename_i different
          simp only [different, and_false, ↓reduceIte, Option.none_or]
          exact valid.stored slot here
      · rw [World.returned_lastStored, stores] at found
        refine Names.names_mono handles ?_
        split at found
        · rename_i here
          rw [here.2]
          exact Names.mem_names_iff.mpr ⟨_, known.tracks.issued_of_getClient live⟩
        · exact valid.issued (by simpa only [Option.none_or] using found)

theorem step {action : Action} (stepped : w.step action = some t) (known : ClientsValid w)
    (valid : SlotsValid w) : SlotsValid t := by
  cases World.steps stepped with
  | native outside invoked admitted => exact valid.returned known (Native.returns invoked)
  | callback made =>
      rcases World.receive_history with ⟨gates, history⟩
      refine valid.of_quiet (fun {handle client} found => ?_) (fun handle type => ?_) ?_
      · exact World.getClient_received (World.receive_clients ▸ found)
      · rw [history, lastStored_gates]
      · rw [history, handleLog_gates]
  | resetClients top =>
      refine valid.of_quiet (fun found => ?_) (fun _ _ => rfl) (List.suffix_cons _ _)
      cases found
  | entered | ret | dispatch | start | stop | destruct | resetOptions | hook | unhook | process
  | drained | take | execute | discard => exact valid.of_same rfl (fun _ _ => rfl) rfl

end SlotsValid

/-! ## Ownership -/

/-- The clients whose destructor is still to run. -/
def pendingDestructs (stack : List GameOp) : List AmxxMqttClient :=
  stack.filterMap fun
    | .destruct client => some client
    | _ => none

@[simp] theorem pendingDestructs_append (front back : List GameOp) :
    pendingDestructs (front ++ back) = pendingDestructs front ++ pendingDestructs back :=
  List.filterMap_append

@[simp] theorem pendingDestructs_destructs (clients : List AmxxMqttClient) :
    pendingDestructs (clients.map .destruct) = clients := by
  induction clients with
  | nil => rfl
  | cons client clients ih => exact congrArg (client :: ·) ih

theorem pendingDestructs_body (call : GameCall) : pendingDestructs call.body = [] := by
  cases call <;> rfl

/-- The ids in the slots of the live clients and of the clients being destroyed. -/
def World.heldIds (w : World P) : List Int :=
  (Table.values w.globals.clients.clients ++ pendingDestructs w.stack).flatMap
    AmxxMqttClient.destructor

/-- Every forward AMXX holds for the module is held in exactly one slot or was leaked, slots hold
forwards of their kind, and the history agrees with AMXX. -/
structure ForwardsValid (w : World P) (leaked : List Int) : Prop where
  owned : List.Perm w.forwards.keys (w.heldIds ++ leaked)
  kinds : ∀ {handle client type}, w.globals.clients.getClient handle = some client →
    client.forwardId type ≠ -1 →
      w.forwards.lookup (client.forwardId type) = some type.signature
  live : ∀ id, Names.live (forwardLog w.history) id = w.forwards.lookup id
  disciplined : Names.Disciplined (forwardLog w.history)

/-- A Paho callback leaves the held ids alone, up to their order. -/
theorem World.received_owned (clients : MqttClientMgr) (handle : Int) (callback : PahoCallback) :
    List.Perm ((Table.values (received clients handle callback).clients).flatMap
        AmxxMqttClient.destructor)
      ((Table.values clients.clients).flatMap AmxxMqttClient.destructor) := by
  unfold received
  split
  · rename_i client live
    simp only [MqttClientMgr.setClient, Table.values_insert, List.flatMap_cons]
    exact (Table.flatMap_values_perm AmxxMqttClient.destructor live).symm
  · exact List.Perm.refl _

namespace ForwardsValid

variable {w t : World P} {leaked : List Int}

theorem initial : ForwardsValid (World.initial : World P) [] where
  owned := List.Perm.refl _
  kinds found := by cases found
  live _ := rfl
  disciplined := True.intro

theorem mem_heldIds {handle : Int} {client : AmxxMqttClient} {type : CallbackType}
    (found : w.globals.clients.getClient handle = some client)
    (set : client.forwardId type ≠ -1) : client.forwardId type ∈ w.heldIds :=
  List.mem_flatMap.mpr ⟨client, List.mem_append_left _ (Table.mem_values_iff.mpr ⟨handle, found⟩),
    AmxxMqttClient.mem_destructor_iff.mpr ⟨set, type, rfl⟩⟩

theorem mem_forwards (valid : ForwardsValid w leaked) {id : Int} (held : id ∈ w.heldIds) :
    id ∈ w.forwards :=
  AList.mem_keys.mpr (valid.owned.mem_iff.mpr (List.mem_append_left _ held))

theorem heldIds_nodup (valid : ForwardsValid w leaked) : w.heldIds.Nodup :=
  (List.nodup_append.mp (valid.owned.nodup_iff.mp w.forwards.keys_nodup)).1

/-- The held ids only change order. -/
theorem of_quiet (valid : ForwardsValid w leaked) (held : List.Perm t.heldIds w.heldIds)
    (forwards : t.forwards = w.forwards)
    (clients : ∀ {handle client}, t.globals.clients.getClient handle = some client →
      ∃ old, w.globals.clients.getClient handle = some old ∧
        ∀ type, client.forwardId type = old.forwardId type)
    (history : forwardLog t.history = forwardLog w.history) : ForwardsValid t leaked where
  owned := by
    rw [forwards]
    exact valid.owned.trans (held.symm.append_right leaked)
  kinds {handle client type} found set := by
    obtain ⟨old, live, same⟩ := clients found
    rw [same] at set ⊢
    rw [forwards]
    exact valid.kinds live set
  live id := by rw [history, forwards]; exact valid.live id
  disciplined := by rw [history]; exact valid.disciplined

/-- A forward still registered after some were released keeps its kinds. -/
theorem lookup_unregister {forwards : AList fun _ : Int => List ForwardParam} {ids : List Int}
    {id : Int} (present : id ∈ World.unregister forwards ids) :
    (World.unregister forwards ids).lookup id = forwards.lookup id := by
  have kept := Table.lookup_eraseAll ids forwards id
  rw [← World.unregister] at kept
  split at kept
  · rw [AList.lookup_eq_none] at kept
    exact absurd present kept
  · exact kept

/-- Releasing held ids: they go from AMXX's forwards and from what is held. -/
theorem of_released (valid : ForwardsValid w leaked) {released : List Int}
    (held : List.Perm w.heldIds (released ++ t.heldIds))
    (forwards : t.forwards = World.unregister w.forwards released)
    (clients : ∀ {handle client}, t.globals.clients.getClient handle = some client →
      w.globals.clients.getClient handle = some client)
    (history : forwardLog t.history = (released.map .retired).reverse ++ forwardLog w.history) :
    ForwardsValid t leaked := by
  have owned : List.Perm t.forwards.keys (t.heldIds ++ leaked) := by
    rw [forwards]
    refine Table.keys_eraseAll_perm (valid.owned.trans ?_)
    rw [← List.append_assoc]
    exact held.append_right leaked
  refine ⟨owned, fun {handle client type} found set => ?_, fun id => ?_, ?_⟩
  · have here : client.forwardId type ∈ t.forwards :=
      AList.mem_keys.mpr (owned.mem_iff.mpr (List.mem_append_left _ (mem_heldIds found set)))
    rw [forwards] at here ⊢
    rw [lookup_unregister here]
    exact valid.kinds (clients found) set
  · rw [history, Names.live_retired, forwards, World.unregister, Table.lookup_eraseAll, valid.live]
  · rw [history]
    refine valid.disciplined.retired ?_ fun id member => ?_
    · exact (List.nodup_append.mp (held.nodup_iff.mp valid.heldIds_nodup)).1
    · rw [valid.live]
      exact AList.lookup_isSome.mpr
        (valid.mem_forwards (held.mem_iff.mpr (List.mem_append_left _ member)))

/-- What the effects of a callback native do to AMXX's forwards. -/
theorem applyEffects_stored (forwards : AList fun _ : Int => List ForwardParam) (id : Int)
    (params : List ForwardParam) (released : List Int) :
    ((.registered id params :: released.map .unregistered : List (Effect P)).foldl
      World.applyEffect forwards) = World.unregister (forwards.insert id params) released := by
  rw [List.foldl_cons, List.foldl_map]
  rfl

theorem forwardEvents_stored (id : Int) (params : List ForwardParam) (released : List Int) :
    ((.registered id params :: released.map .unregistered : List (Effect P)).filterMap
      Effect.forwardEvent).reverse =
        (released.map .retired).reverse ++ [.issued id params] := by
  simp [Effect.forwardEvent, Function.comp_def]

/-- Once a fresh id is registered and stored, every slot of a live client names a forward of its
kinds. -/
theorem kinds_setForwardId (valid : ForwardsValid w leaked) {handle other : Int}
    {client found : AmxxMqttClient} {type slot : CallbackType} {id : Int}
    (live : w.globals.clients.getClient handle = some client) (fresh : id ∉ w.forwards)
    (here : (w.globals.clients.setClient handle (client.setForwardId type id).1).getClient other =
      some found) (filled : found.forwardId slot ≠ -1) :
    (w.forwards.insert id type.signature).lookup (found.forwardId slot) = some slot.signature := by
  have old : ∀ {holder : AmxxMqttClient}, w.globals.clients.getClient other = some holder →
      holder.forwardId slot = found.forwardId slot →
        (w.forwards.insert id type.signature).lookup (found.forwardId slot) =
          some slot.signature := by
    intro holder lives same
    rw [← same] at filled ⊢
    have different : holder.forwardId slot ≠ id := by
      intro equal
      exact fresh (equal ▸ valid.mem_forwards (mem_heldIds lives filled))
    rw [Table.lookup_insert_iff, if_neg different]
    exact valid.kinds lives filled
  simp only [MqttClientMgr.setClient, MqttClientMgr.getClient, Table.lookup_insert_iff] at here
  split at here
  · rename_i same
    cases here
    by_cases replaced : slot = type
    · rw [AmxxMqttClient.forwardId_setForwardId, if_pos replaced, Table.lookup_insert_iff,
        if_pos rfl, replaced]
    · exact old (same ▸ live) (by rw [AmxxMqttClient.forwardId_setForwardId, if_neg replaced])
  · exact old here rfl

/-- Storing a freshly registered id: what the slot held is released or leaked. -/
theorem of_stored (valid : ForwardsValid w leaked) {handle : Int} {client : AmxxMqttClient}
    {type : CallbackType} {id : Int} (live : w.globals.clients.getClient handle = some client)
    (set : id ≠ -1) (fresh : id ∉ w.forwards)
    (clients : t.globals.clients =
      w.globals.clients.setClient handle (client.setForwardId type id).1)
    (stack : t.stack = w.stack)
    (forwards : t.forwards = World.unregister (w.forwards.insert id type.signature)
      (client.setForwardId type id).2)
    (history : forwardLog t.history = ((client.setForwardId type id).2.map .retired).reverse ++
      .issued id type.signature :: forwardLog w.history) :
    ForwardsValid t (client.leakedBy type ++ leaked) := by
  let others := (Table.values (w.globals.clients.clients.erase handle) ++
    pendingDestructs w.stack).flatMap AmxxMqttClient.destructor
  have before : List.Perm w.heldIds (client.destructor ++ others) := by
    simp only [World.heldIds, others, List.flatMap_append, ← List.append_assoc]
    exact (Table.flatMap_values_perm AmxxMqttClient.destructor live).append_right _
  have after : t.heldIds = (client.setForwardId type id).1.destructor ++ others := by
    simp only [World.heldIds, others, clients, stack, MqttClientMgr.setClient, Table.values_insert,
      List.cons_append, List.flatMap_cons]
  have unheld : id ∉ client.destructor := fun member =>
    fresh (valid.mem_forwards (before.mem_iff.mpr (List.mem_append_left _ member)))
  have split : List.Perm (w.forwards.insert id type.signature).keys
      ((client.setForwardId type id).2 ++ (t.heldIds ++ (client.leakedBy type ++ leaked))) := by
    have moved := AmxxMqttClient.setForwardId_perm type set unheld
    have keys : (w.forwards.insert id type.signature).keys = id :: w.forwards.keys := by
      rw [AList.keys_insert, List.erase_of_not_mem fresh]
    rw [keys, after]
    refine ((valid.owned.trans (before.append_right leaked)).cons id).trans ?_
    rw [List.append_assoc, ← List.cons_append]
    refine (moved.append_right _).trans (List.perm_iff_count.mpr fun other => ?_)
    simp only [List.count_append]
    omega
  have owned : List.Perm t.forwards.keys (t.heldIds ++ (client.leakedBy type ++ leaked)) := by
    rw [forwards]
    exact Table.keys_eraseAll_perm split
  have registered : ∀ other, Names.live (.issued id type.signature :: forwardLog w.history) other =
      (w.forwards.insert id type.signature).lookup other := by
    intro other
    rw [Names.live, valid.live, Table.lookup_insert_iff]
    exact if_congr eq_comm rfl rfl
  refine ⟨owned, fun {other found slot} here filled => ?_, fun other => ?_, ?_⟩
  · have present : found.forwardId slot ∈ t.forwards :=
      AList.mem_keys.mpr (owned.mem_iff.mpr (List.mem_append_left _ (mem_heldIds here filled)))
    rw [forwards] at present ⊢
    rw [lookup_unregister present]
    rw [clients] at here
    exact valid.kinds_setForwardId live fresh here filled
  · rw [history, Names.live_retired, registered, forwards, World.unregister,
      Table.lookup_eraseAll]
  · rw [history]
    have start : Names.Disciplined (.issued id type.signature :: forwardLog w.history) :=
      ⟨by rw [valid.live]; exact AList.lookup_eq_none.mpr fresh, valid.disciplined⟩
    refine start.retired ?_ fun other member => ?_
    · exact (List.nodup_append.mp (split.nodup_iff.mp (AList.keys_nodup _))).1
    · rw [registered]
      exact AList.lookup_isSome.mpr
        (AList.mem_keys.mpr (split.mem_iff.mpr (List.mem_append_left _ member)))

theorem applyEffects_of_none {effects : List (Effect P)}
    (none : effects.filterMap Effect.forwardEvent = [])
    (forwards : AList fun _ : Int => List ForwardParam) :
    effects.foldl World.applyEffect forwards = forwards := by
  induction effects generalizing forwards with
  | nil => rfl
  | cons effect effects ih =>
      rw [List.filterMap_cons] at none
      cases effect with
      | registered id params => cases none
      | unregistered id => cases none
      | constructed | logError | request | dispatched => exact ih none forwards

/-- A native call keeps the account; what it leaks are the ids its slot held. -/
theorem returned (valid : ForwardsValid w leaked) (known : ClientsValid w) {native : Native}
    {host : Host} {params : List Cell} {r : NativeReturn P}
    (returns : Returns host params w.globals native r)
    (admitted : ∀ effect ∈ r.effects, w.Admits effect) :
    (ForwardsValid (w.returned native host params r) leaked ∧
        ∀ id kinds effects, r.effects ≠ .registered id kinds :: effects) ∨
      ∃ type handle name client, native.callbackType = some type ∧
        params[1]? = some handle ∧ params[2]? = some name ∧
        w.globals.clients.getClient handle = some client ∧
        host.registerSPForwardByName (host.string name) type.signature ≠ -1 ∧
        ForwardsValid (w.returned native host params r) (client.leakedBy type ++ leaked) := by
  cases returns.tableChange with
  | unchanged clients removed handles stores none =>
      refine .inl ⟨valid.of_quiet ?_ ?_ (fun {handle client} found => ⟨client, ?_, fun _ => rfl⟩)
        ?_, ?_⟩
      · simp [World.heldIds, clients, removed]
      · rw [World.returned_forwards, applyEffects_of_none none]
      · rwa [World.returned_globals, clients] at found
      · rw [World.returned_forwardLog, none]
        rfl
      · intro id kinds effects same
        rw [same, List.filterMap_cons] at none
        cases none
  | @created object handle made removed handles stores effects =>
      obtain ⟨_, table, fresh, _⟩ := known.tracks.make made
      refine .inl ⟨⟨?_, fun {other client type} found set => ?_, fun id => ?_, ?_⟩,
        by simp [effects]⟩
      · have held : (w.returned native host params r).heldIds = w.heldIds := by
          simp only [World.heldIds, World.returned_globals, World.returned_stack, table, removed,
            Table.values_insert_of_notMem fresh, Option.toList_none, List.map_nil, List.nil_append,
            List.cons_append, List.flatMap_cons]
          rfl
        rw [held, World.returned_forwards, effects]
        exact valid.owned
      · rw [World.returned_forwards, effects]
        simp only [World.returned_globals, MqttClientMgr.getClient, table,
          Table.lookup_insert_iff] at found
        split at found
        · cases found
          cases type <;> exact absurd rfl set
        · exact valid.kinds found set
      · rw [World.returned_forwardLog, World.returned_forwards, effects]
        exact valid.live id
      · rw [World.returned_forwardLog, effects]
        exact valid.disciplined
  | @destroyed handle clients removed handles stores effects =>
      refine .inl ⟨valid.of_quiet ?_ ?_ (fun {other client} found => ⟨client, ?_, fun _ => rfl⟩) ?_,
        by simp [effects]⟩
      · simp only [World.heldIds, World.returned_globals, World.returned_stack, clients, removed,
          pendingDestructs_append, pendingDestructs_destructs, MqttClientMgr.destroy]
        cases found : w.globals.clients.clients.lookup handle with
        | none =>
            rw [Table.erase_of_notMem (AList.lookup_eq_none.mp found)]
            exact List.Perm.refl _
        | some client =>
            have moved := (Table.values_perm found).symm
            refine List.Perm.flatMap_right _ (List.Perm.trans ?_ (moved.append_right _))
            simp only [Option.toList_some, List.cons_append]
            exact List.perm_middle
      · rw [World.returned_forwards, effects]
        rfl
      · simp only [World.returned_globals, clients, MqttClientMgr.destroy, MqttClientMgr.getClient,
          Table.lookup_erase_iff] at found
        split at found
        · cases found
        · exact found
      · rw [World.returned_forwardLog, effects]
        rfl
  | @stored handle name type client id kind arg nameArg live registered set clients removed handles
      stores effects =>
      refine .inr ⟨type, handle, name, client, kind, arg, nameArg, live, registered ▸ set, ?_⟩
      have fresh : w.Admits (.registered id type.signature) :=
        admitted _ (effects ▸ List.mem_cons_self)
      refine valid.of_stored live set fresh ?_ ?_ ?_ ?_
      · rw [World.returned_globals, clients]
      · rw [World.returned_stack, removed]
        rfl
      · rw [World.returned_forwards, effects, applyEffects_stored]
      · rw [World.returned_forwardLog, effects, forwardEvents_stored, List.append_assoc]
        rfl

end ForwardsValid

/-! ## Overwritten forwards -/

/-- The call stores a newly registered forward over one the client holds, through one of the
three setters that do not unregister it. -/
def World.Overwrites (w : World P) (action : Action) : Prop :=
  ∃ native host args type handle name client,
    action = .call (.native native host args) ∧ native.callbackType = some type ∧
    type ≠ .message ∧ args[0]? = some handle ∧ args[1]? = some name ∧
    w.globals.clients.getClient handle = some client ∧ client.forwardId type ≠ -1 ∧
    host.registerSPForwardByName (host.string name) type.signature ≠ -1

/-- A callback native whose client is live and whose callback exists registers a forward. -/
theorem setCallback_registers {function : String} {type : CallbackType} {host : Host}
    {args : List Cell} {g : Globals P} {handle name : Cell} {client : AmxxMqttClient}
    {r : NativeReturn P} (handleArg : args[0]? = some handle) (nameArg : args[1]? = some name)
    (live : g.clients.getClient handle = some client)
    (exists_ : host.registerSPForwardByName (host.string name) type.signature ≠ -1)
    (invoked : setCallback function type type.signature host (frame args) g = .ok r) :
    ∃ id kinds effects, r.effects = .registered id kinds :: effects := by
  have count : ¬ argCount (frame args) < 2 := by
    have inside := (List.getElem?_eq_some_iff.mp nameArg).1
    rw [argCount_frame]
    omega
  simp only [setCallback, count, ↓reduceIte, withClient, readArg,
    show (frame args)[1]? = some handle from handleArg,
    show (frame args)[2]? = some name from nameArg, live, exists_] at invoked
  cases invoked
  exact ⟨_, _, _, rfl⟩

theorem Native.invoke_registers {native : Native} {type : CallbackType} {host : Host}
    {args : List Cell} {g : Globals P} {handle name : Cell} {client : AmxxMqttClient}
    {r : NativeReturn P} (kind : native.callbackType = some type)
    (handleArg : args[0]? = some handle) (nameArg : args[1]? = some name)
    (live : g.clients.getClient handle = some client)
    (exists_ : host.registerSPForwardByName (host.string name) type.signature ≠ -1)
    (invoked : native.invoke host (frame args) g = .ok r) :
    ∃ id kinds effects, r.effects = .registered id kinds :: effects := by
  cases native <;> cases kind <;>
    exact setCallback_registers handleArg nameArg live exists_ invoked

/-- **One step's account.**  Every step keeps it, and leaks something exactly when it overwrites
a forward. -/
theorem ForwardsValid.step {w t : World P} {leaked : List Int} {action : Action}
    (stepped : w.step action = some t) (known : ClientsValid w) (valid : ForwardsValid w leaked) :
    ∃ more, ForwardsValid t (more ++ leaked) ∧ (more = [] ↔ ¬ w.Overwrites action) := by
  have quiet : (∀ native host args, action ≠ .call (.native native host args)) →
      ForwardsValid t leaked →
        ∃ more, ForwardsValid t (more ++ leaked) ∧ (more = [] ↔ ¬ w.Overwrites action) := by
    refine fun plain kept => ⟨[], kept, iff_of_true rfl ?_⟩
    rintro ⟨native, host, args, _, _, _, _, same, _⟩
    exact plain native host args same
  cases World.steps stepped with
  | @native native host args r outside invoked admitted =>
      rcases valid.returned known (Native.returns invoked) admitted with
        ⟨kept, unregistered⟩ | ⟨type, handle, name, client, kind, arg, nameArg, live, found, kept⟩
      · refine ⟨[], kept, iff_of_true rfl ?_⟩
        rintro ⟨_, _, _, type, handle, name, client, ⟨⟩, kind, _, handleArg, nameArg, live, _,
          found⟩
        obtain ⟨id, kinds, effects, same⟩ :=
          Native.invoke_registers kind handleArg nameArg live found invoked
        exact unregistered id kinds effects same
      · refine ⟨client.leakedBy type, kept, ?_⟩
        constructor
        · rintro none ⟨_, _, _, other, otherHandle, _, otherClient, ⟨⟩, otherKind, notMessage,
            otherArg, _, otherLive, set, _⟩
          cases kind.symm.trans otherKind
          cases arg.symm.trans otherArg
          cases live.symm.trans otherLive
          simp [AmxxMqttClient.leakedBy, AmxxMqttClient.held, notMessage, set] at none
        · intro keeps
          by_contra some
          refine keeps ⟨native, host, args, type, handle, name, client, rfl, kind, ?_, arg, nameArg,
            live, ?_, found⟩
          · rintro rfl
            exact some rfl
          · intro unset
            exact some (by simp [AmxxMqttClient.leakedBy, AmxxMqttClient.held, unset])
  | entered outside plain =>
      refine quiet (fun native host args same => plain native host args (Action.call.inj same))
        (valid.of_quiet ?_ rfl (fun {_ client} found => ⟨client, found, fun _ => rfl⟩) rfl)
      simp [World.heldIds, pendingDestructs_body]
  | @callback worker handle object callback made =>
      rcases World.receive_history with ⟨gates, history⟩
      refine quiet (by simp)
        (valid.of_quiet ?_ World.receive_forwards (fun {other client} found => ?_) ?_)
      · simp only [World.heldIds, World.receive_clients, World.receive_stack, List.flatMap_append]
        exact (World.received_owned _ _ _).append_right _
      · exact World.getClient_received (World.receive_clients ▸ found)
      · rw [history, forwardLog_gates]
  | @resetClients rest top =>
      refine quiet (by simp) (valid.of_quiet ?_ rfl (fun found => ?_) rfl)
      · simp only [World.heldIds, MqttClientMgr.reset, Table.values_empty, pendingDestructs_append,
          pendingDestructs_destructs, List.nil_append, top]
        exact List.Perm.refl _
      · cases found
  | @destruct client rest top =>
      refine quiet (by simp) (valid.of_released ?_ rfl (fun found => found) rfl)
      simp only [World.heldIds, top, List.flatMap_append]
      exact List.perm_append_comm_assoc _ client.destructor _
  | ret top | start top | stop top | resetOptions top | hook top | unhook top | process top
  | drained top ended | take top popped front | execute top found | discard top found =>
      refine quiet (by simp) (valid.of_quiet ?_ rfl
        (fun {_ client} found => ⟨client, found, fun _ => rfl⟩) rfl)
      simp only [World.heldIds, top]
      exact List.Perm.refl _
  | dispatch =>
      exact quiet (by simp) (valid.of_quiet (List.Perm.refl _) rfl
        (fun {_ client} found => ⟨client, found, fun _ => rfl⟩) rfl)

end AmxxMqtt
