import AmxxMqtt.ClientLifetimes

/-!
# The module's state by location

The state is divided into locations, and every statement has those it reads and those it writes.
A statement changes only what it writes, and what it leads to, and what it writes, depends only on
what it reads and writes.

`m_bIsConnected` is atomic, and so no location.
-/

namespace AmxxMqtt

inductive Location where
  /-- `pendingCallbacks` and `acceptingCallbacks` -/
  | queue
  /-- the four handlers of a client and its `m_stopping` -/
  | handlers (object : ObjectId)
  /-- the memory of a client: constructed, used and freed -/
  | memory (object : ObjectId)
  /-- `m_clients` and `m_nextHandle` -/
  | manager
  /-- the forward ids of all clients -/
  | forwardIds
  /-- `m_options` and what its entries point to -/
  | options
  | indexUsed
  | frameHook
  deriving DecidableEq

/-- The location is not under a mutex, nor in a client. -/
def Location.ofGame : Location → Bool
  | .manager | .forwardIds | .options | .indexUsed | .frameHook => true
  | _ => false

/-! ## What the statements access -/

def ThreadOp.writes : ThreadOp → List Location
  | .pushBack _ | .setAccepting | .clearPending | .takeFront _ => [.queue]
  | .storeHandler object _ _ | .setStopping object => [.handlers object]
  | .emplace _ _ | .resetClients => [.manager]
  | .makeIndex _ => [.indexUsed]
  | .buildOptions _ _ => [.options]
  | .destroyOptions _ | .resetOptions => [.options, .indexUsed]
  | .registerRehldsFrameHook _ | .unregisterRehldsFrameHook => [.frameHook]
  | _ => []

section Accesses

variable {P : PahoOptions}

/-- What a statement reads, besides what it writes. -/
def ThreadOp.reads (s : Shared P) (op : ThreadOp) : List Location :=
  op.uses.toList.map .memory ++
    match op with
    | .readSize => [.queue]
    | .copyHandler object _ _ => [.handlers object]
    | .destroyClient _ => [.forwardIds]
    | .executeCallback event =>
        .manager :: .forwardIds ::
          (s.globals.clients.getClient event.handle).toList.map fun client => .memory client.object
    | _ => []

/-- A location has the same contents in both states. -/
def Location.Same (s s' : Shared P) : Location → Prop
  | .queue => s'.globals.queue = s.globals.queue
  | .handlers object => ∀ client client', s.client object = some client →
      s'.client object = some client' →
        (∀ type, client'.base.handler type = client.base.handler type) ∧
          client'.base.stopping = client.base.stopping
  | .memory object => (s'.client object).isSome = (s.client object).isSome
  | .manager => (∀ handle, s'.objectAt handle = s.objectAt handle) ∧
      s'.globals.clients.nextHandle = s.globals.clients.nextHandle
  | .forwardIds => ∀ object client client', s.client object = some client →
      s'.client object = some client' → ∀ type, client'.forwardId type = client.forwardId type
  | .options => s'.globals.options.options = s.globals.options.options
  | .indexUsed => s'.globals.options.indexUsed = s.globals.options.indexUsed
  | .frameHook => s'.globals.frameHook = s.globals.frameHook

end Accesses

/-! ## What is not written stays the same -/

namespace Shared

variable {P : PahoOptions} {s s' : Shared P} {object : ObjectId}

/-- The client of an object, wherever it is. -/
theorem Listed.client_iff (listed : s.Listed) {client : AmxxMqttClient} :
    s.client object = some client ↔
      (∃ handle, s.globals.clients.getClient handle = some client ∧ client.object = object) ∨
        s.unlisted.lookup object = some client := by
  cases place : s.handleOf object with
  | none =>
      rw [or_iff_right]
      · simp only [Shared.client, place]
      · intro here
        rcases here with ⟨handle, live, rfl⟩
        exact handleOf_eq_none_iff.mp place handle (objectAt_of_live live)
  | some handle =>
      have here := objectAt_of_handleOf place
      rw [or_iff_left]
      · simp only [Shared.client, place]
        constructor
        · intro live
          refine ⟨handle, live, ?_⟩
          rw [objectAt_of_live live] at here
          exact Option.some.inj here
        · intro other
          rcases other with ⟨handle', live, rfl⟩
          rwa [listed.injective here (objectAt_of_live live)]
      · intro loose
        cases place.symm.trans (listed.unlisted loose).2.2

/-- A statement of one client's leaves the others as they are. -/
theorem client_modifyBase (listed : s.Listed)
    (f : MqttClient BoundHandler → MqttClient BoundHandler) (other : ObjectId) :
    (s.modifyBase object f).client other =
      if other = object then
        (s.client object).map fun client => { client with base := f client.base }
      else s.client other := by
  have listed' := listed.modifyBase object f
  have place (handle : Int) := objectAt_modifyBase object f s handle
  cases this : s.client object with
  | none =>
      simp only [modifyBase, this, Option.map_none]
      split
      · rename_i same
        rw [same, this]
      · rfl
  | some client =>
      have written : s.modifyBase object f =
          s.setClient object { client with base := f client.base } := by
        simp only [modifyBase, this]
      rw [written] at place listed' ⊢
      cases owner : s.handleOf object with
      | none =>
          simp only [setClient, owner]
          let after : Shared P := { s with
            unlisted := s.unlisted.insert object { client with base := f client.base } }
          have places : after.handleOf other = s.handleOf other := rfl
          cases here : s.handleOf other with
          | none =>
              rw [Shared.client, places.trans here, Shared.client, here]
              simp only [Table.lookup_insert_iff, Option.map_some]
          | some handle =>
              have different : other ≠ object := by
                rintro rfl
                cases here.symm.trans owner
              rw [if_neg different, Shared.client, places.trans here, Shared.client, here]
      | some handle =>
          cases here : s.handleOf other with
          | none =>
              have different : other ≠ object := by
                rintro rfl
                cases here.symm.trans owner
              have absent : (s.setClient object { client with base := f client.base }).handleOf
                  other = none := by
                refine handleOf_eq_none_iff.mpr fun handle => ?_
                rw [place]
                exact handleOf_eq_none_iff.mp here handle
              rw [if_neg different, Shared.client, absent, Shared.client, here]
              simp only [setClient, owner]
          | some handle' =>
              have still := listed'.handleOf ((place handle').trans (objectAt_of_handleOf here))
              have same : handle' = handle ↔ other = object := by
                constructor
                · rintro rfl
                  have one := (objectAt_of_handleOf here).symm.trans (objectAt_of_handleOf owner)
                  exact Option.some.inj one
                · rintro rfl
                  exact Option.some.inj (here.symm.trans owner)
              rw [Shared.client, still, Shared.client, here]
              simp only [setClient, owner, MqttClientMgr.setClient, MqttClientMgr.getClient,
                Table.lookup_insert_iff, same, Option.map_some]

/-- Every client of the second state is one of the first. -/
def Carries (s s' : Shared P) : Prop :=
  ∀ object client, s'.client object = some client → s.client object = some client

theorem carries_emplace (listed : s.Listed) {handle : Int} {statements : List ThreadOp}
    (free : handle ∉ s.globals.clients.clients)
    (executed : (ThreadOp.emplace handle object).exec s = some (s', statements)) :
    s.Carries s' := by
  have listed' := listed.exec executed
  intro other client here
  simp only [ThreadOp.exec] at executed
  split at executed
  · cases executed
    exact here
  · rename_i entered found
    cases executed
    refine listed.client_iff.mpr ?_
    rcases listed'.client_iff.mp here with ⟨place, live, own⟩ | loose
    · simp only [MqttClientMgr.getClient, MqttClientMgr.emplace, if_neg free,
        Table.lookup_insert_iff] at live
      split at live
      · cases live
        refine .inr ?_
        rw [← own, (listed.unlisted found).1]
        exact found
      · exact .inl ⟨place, live, own⟩
    · rw [Table.lookup_erase_iff] at loose
      split at loose
      · cases loose
      · exact .inr loose

theorem carries_resetClients (listed : s.Listed) {statements : List ThreadOp}
    (executed : ThreadOp.resetClients.exec s = some (s', statements)) : s.Carries s' := by
  have listed' := listed.exec executed
  intro other client here
  cases executed
  refine listed.client_iff.mpr ?_
  rcases listed'.client_iff.mp here with ⟨place, live, _⟩ | loose
  · cases live
  · rcases lookup_unlist _ _ loose with ⟨removed, own⟩ | before
    · obtain ⟨handle, live⟩ := Table.mem_values_iff.mp removed
      exact .inl ⟨handle, live, own⟩
    · exact .inr before

end Shared

namespace Location

variable {P : PahoOptions} {s s' : Shared P} {location : Location}

/-- The locations outside the clients, one by one. -/
structure SameGlobals (s s' : Shared P) (location : Location) : Prop where
  queue : location = .queue → s'.globals.queue = s.globals.queue
  options : location = .options → s'.globals.options.options = s.globals.options.options
  indexUsed : location = .indexUsed → s'.globals.options.indexUsed = s.globals.options.indexUsed
  frameHook : location = .frameHook → s'.globals.frameHook = s.globals.frameHook

/-- Clients that change their places do not change. -/
theorem same_of_carries (carries : s.Carries s')
    (exists_ : ∀ object, (s'.client object).isSome = (s.client object).isSome)
    (manager : location = .manager → Location.manager.Same s s')
    (others : SameGlobals s s' location) : location.Same s s' := by
  cases location with
  | queue => exact others.queue rfl
  | options => exact others.options rfl
  | indexUsed => exact others.indexUsed rfl
  | frameHook => exact others.frameHook rfl
  | manager => exact manager rfl
  | memory object => exact exists_ object
  | handlers object =>
      intro client client' before after
      cases before.symm.trans (carries _ _ after)
      exact ⟨fun _ => rfl, rfl⟩
  | forwardIds =>
      intro object client client' before after
      cases before.symm.trans (carries _ _ after)
      exact fun _ => rfl

/-- No client is involved. -/
theorem same_of_clients (clients : s'.globals.clients = s.globals.clients)
    (unlisted : s'.unlisted = s.unlisted) (others : SameGlobals s s' location) :
    location.Same s s' := by
  have same (object : ObjectId) : s'.client object = s.client object := by
    simp only [Shared.client, Shared.handleOf, clients, unlisted]
  refine same_of_carries (fun object client after => ?_) (fun object => ?_) (fun _ => ?_) others
  · rwa [← same]
  · rw [same]
  · exact ⟨fun handle => by simp only [Shared.objectAt, clients], by rw [clients]⟩

theorem same_refl : location.Same s s :=
  same_of_clients rfl rfl ⟨fun _ => rfl, fun _ => rfl, fun _ => rfl, fun _ => rfl⟩

theorem same_setQueue {queue : CallbackQueue} (unwritten : location ≠ .queue) :
    location.Same s (s.setQueue queue) :=
  same_of_clients rfl rfl
    ⟨fun is => absurd is unwritten, fun _ => rfl, fun _ => rfl, fun _ => rfl⟩

theorem same_setFrameHook {frameHook : FrameHook} (unwritten : location ≠ .frameHook) :
    location.Same s (s.setFrameHook frameHook) :=
  same_of_clients rfl rfl
    ⟨fun _ => rfl, fun _ => rfl, fun _ => rfl, fun is => absurd is unwritten⟩

theorem same_setOptions {options : ConnectOptionMgr P}
    (unwritten : location = .options → options.options = s.globals.options.options)
    (unwritten' : location = .indexUsed → options.indexUsed = s.globals.options.indexUsed) :
    location.Same s (s.setOptions options) :=
  same_of_clients rfl rfl ⟨fun _ => rfl, unwritten, unwritten', fun _ => rfl⟩

theorem globals_modifyBase (object : ObjectId)
    (f : MqttClient BoundHandler → MqttClient BoundHandler) (s : Shared P) :
    ∃ clients, (s.modifyBase object f).globals = { s.globals with clients } ∧
      clients.nextHandle = s.globals.clients.nextHandle := by
  unfold Shared.modifyBase Shared.setClient
  split
  · split
    exacts [⟨_, rfl, rfl⟩, ⟨_, rfl, rfl⟩]
  · exact ⟨_, rfl, rfl⟩

/-- A statement of a client's writes its handlers, or nothing but its flag. -/
theorem same_modifyBase (listed : s.Listed) {object : ObjectId}
    {f : MqttClient BoundHandler → MqttClient BoundHandler}
    (handlers : location = .handlers object → ∀ base,
      (∀ type, (f base).handler type = base.handler type) ∧ (f base).stopping = base.stopping) :
    location.Same s (s.modifyBase object f) := by
  obtain ⟨clients, globals, next⟩ := globals_modifyBase object f s
  have contents {other : ObjectId} {client client' : AmxxMqttClient}
      (before : s.client other = some client)
      (after : (s.modifyBase object f).client other = some client') :
      client' = if other = object then { client with base := f client.base } else client := by
    rw [Shared.client_modifyBase listed] at after
    split at after
    · rename_i same
      subst same
      rw [before] at after
      simpa using after.symm
    · rename_i different
      simpa [different] using (before.symm.trans after).symm
  cases location with
  | queue | options | indexUsed | frameHook =>
      show _ = _
      rw [globals]
  | manager => exact ⟨Shared.objectAt_modifyBase object f s, by rw [globals, next]⟩
  | memory other =>
      show ((s.modifyBase object f).client other).isSome = (s.client other).isSome
      rw [Shared.client_modifyBase listed]
      split
      · rename_i same
        rw [Option.isSome_map, same]
      · rfl
  | handlers other =>
      intro client client' before after
      rw [contents before after]
      split
      · rename_i same
        exact handlers (congrArg _ same) client.base
      · exact ⟨fun _ => rfl, rfl⟩
  | forwardIds =>
      intro other client client' before after type
      rw [contents before after]
      split <;> cases type <;> rfl

/-- A statement changes only what it writes. -/
theorem same_exec (listed : s.Listed) {op : ThreadOp} {statements : List ThreadOp}
    (stays : op.movesClients = false) (executed : op.exec s = some (s', statements))
    (unwritten : location ∉ op.writes) : location.Same s s' := by
  cases op with
  | foreign | paho | lock | unlock => cases executed
  | emplace | resetClients => cases stays
  | pushBack | setAccepting | clearPending =>
      cases executed
      exact same_setQueue (List.ne_of_not_mem_cons unwritten)
  | takeFront =>
      simp only [ThreadOp.exec] at executed
      split at executed <;> cases executed
      · exact same_refl
      · exact same_setQueue (List.ne_of_not_mem_cons unwritten)
  | drain remaining => cases remaining <;> cases executed <;> exact same_refl
  | executeCallback | copyHandler =>
      simp only [ThreadOp.exec] at executed
      split at executed <;> cases executed <;> exact same_refl
  | makeIndex =>
      have other := List.ne_of_not_mem_cons unwritten
      simp only [ThreadOp.exec, ConnectOptionMgr.makeIndex] at executed
      cases free : s.globals.options.freeIndex with
      | none =>
          simp only [free] at executed
          cases executed
          exact same_setOptions (fun _ => rfl) (fun _ => rfl)
      | some index =>
          simp only [free] at executed
          cases executed
          exact same_setOptions (fun _ => rfl) (fun is => absurd is other)
  | buildOptions =>
      have other := List.ne_of_not_mem_cons unwritten
      simp only [ThreadOp.exec] at executed
      split at executed
      · split at executed <;> cases executed
        · exact same_refl
        · exact same_setOptions (fun is => absurd is other) (fun _ => rfl)
      · cases executed
        exact same_refl
  | destroyOptions | resetOptions =>
      cases executed
      simp only [ThreadOp.writes, List.mem_cons, List.not_mem_nil, or_false, not_or] at unwritten
      exact same_setOptions (fun is => absurd is unwritten.1) (fun is => absurd is unwritten.2)
  | registerRehldsFrameHook | unregisterRehldsFrameHook =>
      cases executed
      exact same_setFrameHook (List.ne_of_not_mem_cons unwritten)
  | storeConnected =>
      cases executed
      refine same_modifyBase listed fun _ base => ⟨fun type => ?_, rfl⟩
      cases type <;> rfl
  | storeHandler | setStopping =>
      cases executed
      exact same_modifyBase listed fun is => absurd is (List.ne_of_not_mem_cons unwritten)
  | _ =>
      cases executed
      exact same_refl

end Location

/-! ## What is not accessed does not matter -/

namespace Location

variable {P : PahoOptions} {s u s' u' : Shared P} {object : ObjectId}

theorem Same.kept (same : Location.manager.Same s u) : u.kept object ↔ s.kept object := by
  simp only [Shared.kept, same.1]

theorem mem_clients_iff {handle : Int} :
    handle ∈ s.globals.clients.clients ↔ (s.objectAt handle).isSome = true := by
  rw [Shared.objectAt, Option.isSome_map, MqttClientMgr.getClient, AList.lookup_isSome]

/-- A client that is loose in one state is loose in the other. -/
theorem Same.loose (listed : s.Listed) (manager : Location.manager.Same s u)
    (memory : (Location.memory object).Same s u) (loose : s.loose object) : u.loose object := by
  obtain ⟨client, found⟩ := Option.isSome_iff_exists.mp loose
  have absent := Shared.handleOf_eq_none_iff.mp (listed.unlisted found).2.2
  have alive : (u.client object).isSome = true := by
    rw [show _ = _ from memory, Shared.client_isSome_iff]
    exact .inr loose
  refine (Shared.client_isSome_iff.mp alive).resolve_left fun kept => ?_
  rcases manager.kept.mp kept with ⟨handle, here⟩
  exact absent handle here

theorem same_copyHandler (memory : (Location.memory object).Same s u)
    (handlers : (Location.handlers object).Same s u) (type : CallbackType) :
    ((u.client object).bind fun client => client.base.copyHandler type) =
      (s.client object).bind fun client => client.base.copyHandler type := by
  have exists_ : (u.client object).isSome = (s.client object).isSome := memory
  cases before : s.client object with
  | none =>
      rw [before, Option.isSome_none, Option.isSome_eq_false_iff, Option.isNone_iff_eq_none]
        at exists_
      rw [exists_]
  | some client =>
      rw [before, Option.isSome_some, Option.isSome_iff_exists] at exists_
      rcases exists_ with ⟨client', after⟩
      obtain ⟨same, stopping⟩ := handlers _ _ before after
      rw [after]
      simp only [Option.bind_some, MqttClient.copyHandler, same, stopping]

/-- The forward an event is executed with. -/
theorem same_executeCallback (listed : s.Listed) (listed' : u.Listed)
    (manager : Location.manager.Same s u) (forwardIds : Location.forwardIds.Same s u)
    (event : CallbackEvent) :
    executeCallback u.globals.clients event = executeCallback s.globals.clients event := by
  have place := manager.1 event.handle
  cases live : s.globals.clients.getClient event.handle with
  | none =>
      have dead : u.globals.clients.getClient event.handle = none := by
        simpa only [Shared.objectAt, live, Option.map_none, Option.map_eq_none_iff] using place
      rw [executeCallback_of_dead live, executeCallback_of_dead dead]
  | some client =>
      rw [Shared.objectAt_of_live live] at place
      obtain ⟨client', live', own⟩ := Option.map_eq_some_iff.mp place
      have ids := forwardIds _ _ _ (listed.this live) (own ▸ listed'.this live')
      apply Option.ext
      intro result
      rcases result with ⟨id, args⟩
      simp only [executeCallback_eq_some_iff, live, live', Option.some.injEq, exists_eq_left', ids]

theorem Same.symm {location : Location} (same : location.Same s u) : location.Same u s := by
  cases location with
  | queue | options | indexUsed | frameHook | memory => exact Eq.symm same
  | manager => exact ⟨fun handle => (same.1 handle).symm, same.2.symm⟩
  | handlers object =>
      intro client client' before after
      obtain ⟨handlers, stopping⟩ := same _ _ after before
      exact ⟨fun type => (handlers type).symm, stopping.symm⟩
  | forwardIds =>
      intro object client client' before after type
      exact (same _ _ _ after before type).symm

/-- The same statement on a client's handlers leads to the same handlers. -/
theorem same_of_modifyBase (listed : s.Listed) (listed' : u.Listed)
    {f : MqttClient BoundHandler → MqttClient BoundHandler}
    (handlers : (Location.handlers object).Same s u)
    (follows : ∀ base base', ((∀ type, base'.handler type = base.handler type) ∧
        base'.stopping = base.stopping) →
      (∀ type, (f base').handler type = (f base).handler type) ∧
        (f base').stopping = (f base).stopping) :
    (Location.handlers object).Same (s.modifyBase object f) (u.modifyBase object f) := by
  intro client client' before after
  simp only [Shared.client_modifyBase listed, Shared.client_modifyBase listed', ↓reduceIte]
    at before after
  obtain ⟨old, was, rfl⟩ := Option.map_eq_some_iff.mp before
  obtain ⟨old', was', rfl⟩ := Option.map_eq_some_iff.mp after
  exact follows _ _ (handlers _ _ was was')

/-- What `emplace` does to the table and the counter. -/
theorem exec_emplace (listed : s.Listed) {handle : Int} {statements : List ThreadOp}
    (executed : (ThreadOp.emplace handle object).exec s = some (s', statements)) :
    statements = [] ∧
      (∀ other, s'.objectAt other =
        if (s.unlisted.lookup object).isSome ∧ (s.objectAt handle).isSome = false ∧ other = handle
        then some object else s.objectAt other) ∧
      s'.globals.clients.nextHandle = if (s.unlisted.lookup object).isSome then
        (s.globals.clients.nextHandle + 1) % 2 ^ 64 else s.globals.clients.nextHandle := by
  simp only [ThreadOp.exec] at executed
  split at executed
  · rename_i absent
    cases executed
    simp [absent]
  · rename_i client found
    cases executed
    refine ⟨rfl, fun other => ?_, by simp [found]⟩
    by_cases taken : handle ∈ s.globals.clients.clients
    · have occupied := mem_clients_iff.mp taken
      rw [if_neg (by simp [occupied])]
      simp only [Shared.objectAt, MqttClientMgr.getClient, MqttClientMgr.emplace, if_pos taken]
    · have free : (s.objectAt handle).isSome = false := by
        rw [← Bool.not_eq_true, ← mem_clients_iff]
        exact taken
      rw [Shared.objectAt_emplace taken, (listed.unlisted found).1]
      simp [found, free]

theorem mem_objects_iff :
    object ∈ (Table.values s.globals.clients.clients).map (·.object) ↔ s.kept object := by
  rw [List.mem_map]
  constructor
  · intro among
    rcases among with ⟨client, member, rfl⟩
    obtain ⟨handle, live⟩ := Table.mem_values_iff.mp member
    exact ⟨handle, Shared.objectAt_of_live live⟩
  · intro kept
    rcases kept with ⟨handle, here⟩
    obtain ⟨client, live, own⟩ := Option.map_eq_some_iff.mp here
    exact ⟨client, Table.mem_values_iff.mpr ⟨handle, live⟩, own⟩

/-- **What a statement leads to, and what it writes, depends only on what it accesses.**  `reset`
destroys the clients in the order its table has them, which is not specified. -/
theorem same_of_access (listed : s.Listed) (listed' : u.Listed) {op : ThreadOp}
    {statements statements' : List ThreadOp}
    (reads : ∀ location ∈ op.reads s, location.Same s u)
    (writes : ∀ location ∈ op.writes, location.Same s u)
    (executed : op.exec s = some (s', statements))
    (executed' : op.exec u = some (u', statements')) :
    statements.Perm statements' ∧ ∀ location ∈ op.writes, location.Same s' u' := by
  have one (location : Location) (only : op.writes = [location]) (same : location.Same s' u') :
      ∀ location ∈ op.writes, location.Same s' u' := by
    rw [only]
    intro written member
    cases List.mem_singleton.mp member
    exact same
  cases op with
  | foreign | paho | lock | unlock => cases executed
  | pushBack event | setAccepting | clearPending =>
      have queue : u.globals.queue = s.globals.queue := writes _ List.mem_cons_self
      cases executed
      cases executed'
      refine ⟨.refl _, one .queue rfl ?_⟩
      show _ = _
      simp only [Shared.setQueue, queue]
  | readSize =>
      have queue : u.globals.queue = s.globals.queue := reads .queue (by simp [ThreadOp.reads])
      cases executed
      cases executed'
      rw [queue]
      exact ⟨.refl _, by simp [ThreadOp.writes]⟩
  | takeFront remaining =>
      have queue : u.globals.queue = s.globals.queue := writes _ List.mem_cons_self
      simp only [ThreadOp.exec, queue] at executed executed'
      cases front : s.globals.queue.takeFront with
      | none =>
          simp only [front] at executed executed'
          cases executed
          cases executed'
          exact ⟨.refl _, one .queue rfl queue⟩
      | some taken =>
          simp only [front] at executed executed'
          cases executed
          cases executed'
          exact ⟨.refl _, one .queue rfl rfl⟩
  | drain remaining =>
      cases remaining <;> cases executed <;> cases executed' <;>
        exact ⟨.refl _, by simp [ThreadOp.writes]⟩
  | executeCallback event =>
      have found := same_executeCallback listed listed' (reads .manager (by simp [ThreadOp.reads]))
        (reads .forwardIds (by simp [ThreadOp.reads])) event
      simp only [ThreadOp.exec, found] at executed executed'
      cases called : AmxxMqtt.executeCallback s.globals.clients event <;>
        simp only [called] at executed executed' <;> cases executed <;> cases executed' <;>
        exact ⟨.refl _, by simp [ThreadOp.writes]⟩
  | copyHandler object type notification =>
      have copied := same_copyHandler
        (reads (.memory object) (by simp [ThreadOp.reads, ThreadOp.uses]))
        (reads (.handlers object) (by simp [ThreadOp.reads])) type
      simp only [ThreadOp.exec, copied] at executed executed'
      cases copy : (s.client object).bind fun client => client.base.copyHandler type <;>
        simp only [copy] at executed executed' <;> cases executed <;> cases executed' <;>
        exact ⟨.refl _, by simp [ThreadOp.writes]⟩
  | storeHandler object type handler =>
      cases executed
      cases executed'
      refine ⟨.refl _, one (.handlers object) rfl ?_⟩
      refine same_of_modifyBase listed listed' (writes _ List.mem_cons_self)
        fun base base' same => ?_
      simp only [MqttClient.handler_setHandler, MqttClient.setHandler_stopping, same, implies_true,
        and_self]
  | setStopping object =>
      cases executed
      cases executed'
      refine ⟨.refl _, one (.handlers object) rfl ?_⟩
      refine same_of_modifyBase listed listed' (writes _ List.mem_cons_self)
        fun base base' same => ?_
      refine ⟨fun type => ?_, rfl⟩
      have handler := same.1 type
      cases type <;> exact handler
  | emplace handle object =>
      have manager := writes .manager List.mem_cons_self
      have memory := reads (.memory object) (by simp [ThreadOp.reads, ThreadOp.uses])
      obtain ⟨rfl, placed, next⟩ := exec_emplace listed executed
      obtain ⟨rfl, placed', next'⟩ := exec_emplace listed' executed'
      have looked : (u.unlisted.lookup object).isSome = (s.unlisted.lookup object).isSome :=
        Bool.eq_iff_iff.mpr ⟨Same.loose listed' manager.symm memory.symm,
          Same.loose listed manager memory⟩
      refine ⟨.refl _, one .manager rfl ⟨fun other => ?_, ?_⟩⟩
      · simp only [placed, placed', looked, manager.1]
      · simp only [next, next', looked, manager.2]
  | resetClients =>
      have manager := writes .manager List.mem_cons_self
      cases executed
      cases executed'
      refine ⟨?_, one .manager rfl ⟨fun _ => rfl, manager.2⟩⟩
      have objects : ((Table.values s.globals.clients.clients).map (·.object)).Perm
          ((Table.values u.globals.clients.clients).map (·.object)) := by
        refine (List.perm_ext_iff_of_nodup listed.nodup_values listed'.nodup_values).mpr ?_
        intro object
        rw [mem_objects_iff, mem_objects_iff, manager.kept]
      have statements := objects.map ThreadOp.destroyClient
      rwa [List.map_map, List.map_map] at statements
  | makeIndex failure =>
      have used : u.globals.options.indexUsed = s.globals.options.indexUsed :=
        writes _ List.mem_cons_self
      have free : u.globals.options.freeIndex = s.globals.options.freeIndex := by
        simp only [ConnectOptionMgr.freeIndex, used]
      simp only [ThreadOp.exec, ConnectOptionMgr.makeIndex, free] at executed executed'
      cases found : s.globals.options.freeIndex with
      | none =>
          simp only [found] at executed executed'
          cases executed
          cases executed'
          exact ⟨.refl _, one .indexUsed rfl used⟩
      | some index =>
          simp only [found] at executed executed'
          cases executed
          cases executed'
          exact ⟨.refl _, one .indexUsed rfl (congrArg (insert index) used)⟩
  | buildOptions index failure =>
      have options : u.globals.options.options = s.globals.options.options :=
        writes _ List.mem_cons_self
      by_cases reserved : index ≠ 0
      · simp only [ThreadOp.exec, if_pos reserved] at executed executed'
        cases failure with
        | some thrown =>
            cases executed
            cases executed'
            exact ⟨.refl _, one .options rfl options⟩
        | none =>
            cases executed
            cases executed'
            refine ⟨.refl _, one .options rfl ?_⟩
            show AList.insert _ _ _ = AList.insert _ _ _
            rw [options]
      · simp only [ThreadOp.exec, if_neg reserved] at executed executed'
        cases executed
        cases executed'
        exact ⟨.refl _, one .options rfl options⟩
  | destroyOptions index =>
      have options : u.globals.options.options = s.globals.options.options :=
        writes _ List.mem_cons_self
      have used : u.globals.options.indexUsed = s.globals.options.indexUsed :=
        writes .indexUsed (by simp [ThreadOp.writes])
      have found : u.globals.options.destroy index =
          ⟨(s.globals.options.destroy index).options,
            (s.globals.options.destroy index).indexUsed⟩ := by
        unfold ConnectOptionMgr.destroy
        rw [options, used]
        split
        · rfl
        · rw [← options, ← used]
      cases executed
      cases executed'
      simp [ThreadOp.writes, Location.Same, Shared.setOptions, found]
  | resetOptions =>
      cases executed
      cases executed'
      exact ⟨.refl _, by simp [ThreadOp.writes, Location.Same, Shared.setOptions,
        ConnectOptionMgr.reset]⟩
  | registerRehldsFrameHook | unregisterRehldsFrameHook =>
      have frameHook : u.globals.frameHook = s.globals.frameHook := writes _ List.mem_cons_self
      cases executed
      cases executed'
      refine ⟨.refl _, one .frameHook rfl ?_⟩
      show _ = _
      simp only [Shared.setFrameHook, frameHook]
  | _ =>
      cases executed
      cases executed'
      exact ⟨.refl _, by simp [ThreadOp.writes]⟩

end Location

end AmxxMqtt
