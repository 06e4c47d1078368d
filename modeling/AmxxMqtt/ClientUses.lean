import AmxxMqtt.Deadlock
import AmxxMqtt.Mirrors
import AmxxMqtt.Lib.Lifetimes

/-!
# What the statements do with clients

The statements of a client run through its `this`, on the game thread and on workers, and the
client can be destroyed while they are pending.  `ThreadOp.discipline` says which client each
statement uses, which it owns as the `unique_ptr` it moves or destroys, and which Paho keeps alive
until it is done.  What a statement leads to uses and owns no other clients than it does itself,
and what a native leads to uses clients the manager has, or those it constructs and removes.
-/

namespace AmxxMqtt

/-! ## What the statements do with clients -/

/-- The client whose memory the statement reads or writes. -/
def ThreadOp.uses : ThreadOp → Option ObjectId
  | .lock (.handlerMutex object) | .unlock (.handlerMutex object) | .paho object _
  | .storeConnected object _ | .callHandler object _ _ | .copyHandler object _ _
  | .callbackReturn object | .setHandler object _ _ | .storeHandler object _ _
  | .emplace _ object | .destroyClient object | .setStopping object => some object
  | _ => none

/-- The client whose `unique_ptr` the statement moves into the table or destroys. -/
def ThreadOp.owns : ThreadOp → Option ObjectId
  | .emplace _ object | .destroyClient object | .paho object .destroy => some object
  | _ => none

/-- The client that `MQTTAsync_destroy` does not free before the statement is done. -/
def ThreadOp.covers : ThreadOp → Option ObjectId
  | .callbackReturn object => some object
  | _ => none

/-- After the statement the call uses no client. -/
def ThreadOp.last : ThreadOp → Bool
  | .foreign | .processPendingCallbacks | .readSize | .drain _ | .takeFront _
  | .executeCallback _ | .resetClients | .makeOptions _ | .makeIndex _ | .buildOptions _ _
  | .emplace _ _ => true
  | _ => false

def ThreadOp.discipline : Lifetimes.Discipline ObjectId ThreadOp where
  uses := uses
  owns := owns
  covers := covers
  last := last
  owns_uses {op object} owned := by
    cases op with
    | emplace | destroyClient => exact owned
    | paho object operation =>
        cases operation with
        | destroy => exact owned
        | _ => cases owned
    | _ => cases owned

namespace ThreadOp

open Lifetimes

/-- The statements that take clients into the table or out of it. -/
def movesClients : ThreadOp → Bool
  | .emplace _ _ | .resetClients => true
  | _ => false

/-- What a statement leads to uses the client it uses, and owns the client it owns. -/
structure Hands (op : ThreadOp) (statements : List ThreadOp) : Prop where
  fits : discipline.Fits op statements
  uses : ∀ next ∈ statements, ∀ {object}, next.uses = some object → op.uses = some object
  owns : ∀ {object}, (∃ next ∈ statements, next.owns = some object) ↔ op.owns = some object

theorem hands_of_passes {op : ThreadOp} {statements : List ThreadOp}
    (borrows : op.owns = none) (passes : ∀ next ∈ statements, discipline.Passes next)
    (uses : ∀ next ∈ statements, ∀ {object}, next.uses = some object → op.uses = some object) :
    op.Hands statements where
  fits := Discipline.fits_of_passes op passes
  uses := uses
  owns {object} := by
    rw [borrows]
    refine iff_of_false (fun owned => ?_) (by simp)
    rcases owned with ⟨next, member, owns⟩
    cases (passes next member).2.symm.trans owns

/-- A statement that leads to nothing. -/
theorem hands_nil {op : ThreadOp} (borrows : op.owns = none) : op.Hands [] :=
  hands_of_passes borrows (by simp) (by simp)

theorem hands_of_last {op : ThreadOp} {statements : List ThreadOp} (last : op.last = true)
    (borrows : op.owns = none)
    (unused : ∀ next ∈ statements, next.uses = none) : op.Hands statements where
  fits := by
    refine ⟨List.pairwise_iff_forall_sublist.mpr fun {first next} sub => ?_, .inl last⟩
    exact Discipline.below_of_unused (unused next (sub.subset (by simp))) first
  uses next member object used := by
    cases (unused next member).symm.trans used
  owns {object} := by
    rw [borrows]
    refine iff_of_false (fun owned => ?_) (by simp)
    rcases owned with ⟨next, member, owns⟩
    cases (unused next member).symm.trans (discipline.owns_uses owns)

/-- **What a statement leads to, client by client.** -/
theorem exec_hands {P : PahoOptions} {s s' : Shared P} {op : ThreadOp}
    {statements : List ThreadOp} (stays : op.movesClients = false)
    (executed : op.exec s = some (s', statements)) : op.Hands statements := by
  cases op with
  | foreign | paho | lock | unlock => cases executed
  | emplace | resetClients => cases stays
  | enqueueCallback | startCallbackDispatcher | stopCallbackDispatcher | invoke =>
      cases executed
      exact hands_of_passes rfl (by simp [guarded, Discipline.Passes, discipline, last, owns])
        (by simp [guarded, ThreadOp.uses])
  | callHandler | setHandler =>
      cases executed
      exact hands_of_passes rfl (by simp [guarded, Discipline.Passes, discipline, last, owns])
        (by simp [guarded, ThreadOp.uses])
  | pushBack | setAccepting | clearPending | storeConnected | handlerReturn | callbackReturn
  | storeHandler | setStopping | destroyOptions | resetOptions | registerRehldsFrameHook
  | unregisterRehldsFrameHook =>
      cases executed
      exact hands_nil rfl
  | copyHandler object type notification =>
      simp only [exec] at executed
      split at executed <;> cases executed <;>
        exact hands_of_passes rfl (by simp [Discipline.Passes, discipline, last, owns])
          (by simp [ThreadOp.uses])
  | processPendingCallbacks | readSize | makeOptions =>
      cases executed
      exact hands_of_last rfl rfl (by simp [ThreadOp.uses])
  | drain remaining =>
      cases remaining <;> cases executed <;>
        exact hands_of_last rfl rfl (by simp [ThreadOp.uses])
  | takeFront | executeCallback | makeIndex =>
      simp only [exec] at executed
      split at executed <;> cases executed <;>
        exact hands_of_last rfl rfl (by simp [ThreadOp.uses])
  | buildOptions =>
      simp only [exec] at executed
      split at executed
      · split at executed <;> cases executed <;>
          exact hands_of_last rfl rfl (by simp [ThreadOp.uses])
      · cases executed
        exact hands_of_last rfl rfl (by simp)
  | destroyClient object =>
      cases executed
      refine ⟨⟨?_, .inr ?_⟩, ?_, ?_⟩
      · simp [Discipline.Ordered, Discipline.Below, guarded, discipline, last, owns]
      · simp [guarded, discipline, last, owns]
      · simp [guarded, ThreadOp.uses]
      · simp [guarded, owns]

end ThreadOp

/-! ## Where the clients are -/

namespace Shared

variable {P : PahoOptions} {s s' : Shared P} {object : ObjectId}

/-- The manager has the client. -/
def kept (s : Shared P) (object : ObjectId) : Prop :=
  ∃ handle, s.objectAt handle = some object

/-- The client is under construction or on its way to destruction. -/
def loose (s : Shared P) (object : ObjectId) : Prop :=
  (s.unlisted.lookup object).isSome = true

/-- A client exists where one of the two places has it. -/
theorem client_isSome_iff : (s.client object).isSome = true ↔ s.kept object ∨ s.loose object := by
  unfold client
  cases place : s.handleOf object with
  | none =>
      rw [or_iff_right]
      · exact Iff.rfl
      · intro kept
        rcases kept with ⟨handle, here⟩
        exact handleOf_eq_none_iff.mp place handle here
  | some handle =>
      have here := objectAt_of_handleOf place
      refine iff_of_true ?_ (.inl ⟨handle, here⟩)
      obtain ⟨client, live, _⟩ := Option.map_eq_some_iff.mp here
      simp only [live, Option.isSome_some]

/-- No client changes its place. -/
def SamePlaces (s s' : Shared P) : Prop :=
  (∀ handle, s'.objectAt handle = s.objectAt handle) ∧
    ∀ object, (s'.unlisted.lookup object).isSome = (s.unlisted.lookup object).isSome

theorem SamePlaces.refl (s : Shared P) : s.SamePlaces s :=
  ⟨fun _ => rfl, fun _ => rfl⟩

theorem SamePlaces.kept (same : s.SamePlaces s') : s'.kept object ↔ s.kept object := by
  simp only [Shared.kept, same.1]

theorem SamePlaces.loose (same : s.SamePlaces s') : s'.loose object ↔ s.loose object := by
  simp only [Shared.loose, same.2]

theorem samePlaces_modifyBase (object : ObjectId)
    (f : MqttClient BoundHandler → MqttClient BoundHandler) (s : Shared P) :
    s.SamePlaces (s.modifyBase object f) := by
  refine ⟨objectAt_modifyBase object f s, fun other => ?_⟩
  have names := congrArg Option.isSome (unlisted_modifyBase object f s other)
  rwa [Option.isSome_map, Option.isSome_map] at names

theorem samePlaces_exec {op : ThreadOp} {statements : List ThreadOp}
    (stays : op.movesClients = false) (executed : op.exec s = some (s', statements)) :
    s.SamePlaces s' := by
  cases op with
  | foreign | paho | lock | unlock => cases executed
  | emplace | resetClients => cases stays
  | drain remaining => cases remaining <;> cases executed <;> exact .refl s
  | takeFront | executeCallback | copyHandler | makeIndex =>
      simp only [ThreadOp.exec] at executed
      split at executed <;> cases executed <;> exact .refl s
  | buildOptions =>
      simp only [ThreadOp.exec] at executed
      split at executed
      · split at executed <;> cases executed <;> exact .refl s
      · cases executed
        exact .refl s
  | storeConnected | storeHandler | setStopping =>
      cases executed
      exact samePlaces_modifyBase _ _ s
  | _ =>
      cases executed
      exact .refl s

/-! ### Clients into the table and out of it -/

theorem objectAt_emplace {handle : Int} {client : AmxxMqttClient} {nextHandle : Nat}
    {unlisted : AList fun _ : ObjectId => AmxxMqttClient}
    (free : handle ∉ s.globals.clients.clients) (other : Int) :
    ({ s with
      globals := { s.globals with
        clients := ⟨MqttClientMgr.emplace handle client s.globals.clients.clients, nextHandle⟩ }
      unlisted } : Shared P).objectAt other =
      if other = handle then some client.object else s.objectAt other := by
  simp only [objectAt, MqttClientMgr.getClient, MqttClientMgr.emplace, if_neg free,
    Table.lookup_insert_iff]
  split <;> rfl

theorem loose_erase {other : ObjectId} :
    ({ s with unlisted := s.unlisted.erase object } : Shared P).loose other ↔
      s.loose other ∧ other ≠ object := by
  simp only [loose, Table.lookup_erase_iff]
  split
  · rename_i same
    simp [same]
  · rename_i different
    simp [different]

/-- Clients taken out of the table are loose. -/
theorem loose_unlist (removed : List AmxxMqttClient) (s : Shared P) {object : ObjectId} :
    (s.unlist removed).loose object ↔
      s.loose object ∨ ∃ client ∈ removed, client.object = object := by
  unfold unlist loose
  simp only
  generalize s.unlisted = unlisted
  induction removed generalizing unlisted with
  | nil => simp
  | cons first removed ih =>
      rw [List.foldl_cons, ih, Table.lookup_insert_iff]
      by_cases same : object = first.object
      · simp [same]
      · simp [same, Ne.symm same]

/-- The clients of the table are under one handle each. -/
theorem Listed.nodup_values (listed : s.Listed) :
    ((Table.values s.globals.clients.clients).map (·.object)).Nodup := by
  apply Table.nodup_map_values
  intro handle other client client' here there same
  exact listed.injective (objectAt_of_live here) (same ▸ objectAt_of_live there)

end Shared

/-! ## Requests are made of live clients -/

section Requests

variable {P : PahoOptions} {host : Host} {params : List Cell} {g : Globals P}

/-- Whatever request the outcome makes, it makes of a client the manager has. -/
def NativeOutcome.OfLive (g : Globals P) (outcome : NativeOutcome P) : Prop :=
  ∀ {r object request}, outcome = .ok r → Effect.request object request ∈ r.effects →
    ∃ handle client, g.clients.getClient handle = some client ∧ client.object = object

theorem ofLive_reject (error : NativeError) : (reject g error).OfLive g := by
  intro r object request returned member
  cases returned
  cases List.mem_singleton.mp member

theorem ofLive_readArg {index : Nat} {body : Cell → NativeOutcome P}
    (inner : ∀ cell, (body cell).OfLive g) : (readArg params index body).OfLive g := by
  intro r object request returned
  obtain ⟨cell, _, returned⟩ := readArg_eq_ok.mp returned
  exact inner cell returned

theorem ofLive_readOptionalArg {index : Nat} {absent : Cell} {body : Cell → NativeOutcome P}
    (inner : ∀ cell, (body cell).OfLive g) :
    (readOptionalArg params index absent body).OfLive g := by
  intro r object request returned
  obtain ⟨cell, returned⟩ := readOptionalArg_eq_ok returned
  exact inner cell returned

theorem ofLive_withClient {body : Cell → AmxxMqttClient → NativeOutcome P}
    (inner : ∀ {handle client}, g.clients.getClient handle = some client →
      (body handle client).OfLive g) : (withClient params g body).OfLive g := by
  apply ofLive_readArg
  intro handle
  split
  · exact ofLive_reject _
  · exact inner ‹_›

theorem ofLive_ite {condition : Prop} [Decidable condition] {error : NativeError}
    {outcome : NativeOutcome P} (inner : outcome.OfLive g) :
    (if condition then reject g error else outcome).OfLive g := by
  split
  exacts [ofLive_reject error, inner]

theorem ofLive_submit {handle : Int} {client : AmxxMqttClient} {asked : PahoRequest P}
    {threw : Option Thrown} (live : g.clients.getClient handle = some client) :
    (submit g client asked threw).OfLive g := by
  intro r object request returned member
  refine ⟨handle, client, live, ?_⟩
  rcases threw with _ | _ | _ <;> cases returned <;> simp at member <;> exact member.1.symm

theorem ofLive_requests {native : Native} (kind : native.requests = true) :
    (native.invoke host params g).OfLive g := by
  cases native with
  | mqttSubscribe =>
      refine ofLive_ite (ofLive_withClient fun live => ofLive_readArg fun topic => ofLive_ite ?_)
      exact ofLive_readOptionalArg fun qos => ofLive_ite (ofLive_submit live)
  | mqttUnsubscribe =>
      refine ofLive_ite (ofLive_withClient fun live => ofLive_readArg fun topic => ?_)
      exact ofLive_ite (ofLive_submit live)
  | mqttPublish =>
      refine ofLive_ite (ofLive_withClient fun live => ofLive_readArg fun topic => ofLive_ite ?_)
      refine ofLive_readArg fun data => ofLive_readOptionalArg fun retained => ?_
      exact ofLive_readOptionalArg fun qos => ofLive_ite (ofLive_submit live)
  | _ => cases kind

/-- Every request a native makes is made of a client the manager has. -/
theorem request_live {native : Native} {r : NativeReturn P}
    (invoked : native.invoke host params g = .ok r) {object : ObjectId} {request : PahoRequest P}
    (member : .request object request ∈ r.effects) :
    ∃ handle client, g.clients.getClient handle = some client ∧ client.object = object := by
  cases Native.returns invoked with
  | connected _ _ live | disconnectSent _ live | disconnectQuiet _ live =>
      cases List.mem_singleton.mp member
      exact ⟨_, _, live, rfl⟩
  | connectThrew _ _ live | disconnectThrew _ live =>
      simp at member
      exact ⟨_, _, live, member.1.symm⟩
  | requested kind | requestThrew kind => exact ofLive_requests kind invoked member
  | stored => simp at member
  | _ => simp [rejection] at member

end Requests

/-! ## What the statements of a native use -/

section Statements

open Lifetimes

variable {P : PahoOptions} {host : Host} {params : List Cell} {g : Globals P}
  {native : Native} {r : NativeReturn P}

theorem passes_paho {object : ObjectId} {operation : PahoOp} (living : operation ≠ .destroy) :
    ThreadOp.discipline.Passes (.paho object operation) := by
  cases operation with
  | destroy => exact absurd rfl living
  | _ => exact ⟨rfl, rfl⟩

theorem uses_afterRequest {object : ObjectId} {op : ThreadOp}
    (member : op ∈ native.afterRequest host params object) :
    ThreadOp.discipline.Passes op ∧ ∀ {other}, op.uses = some other → other = object := by
  unfold Native.afterRequest at member
  split at member
  · cases List.mem_singleton.mp member
    exact ⟨⟨rfl, rfl⟩, fun used => nomatch used⟩
  · split at member
    · cases List.mem_singleton.mp member
      exact ⟨⟨rfl, rfl⟩, fun used => (Option.some.inj used).symm⟩
    · cases member
  · cases member

/-- Which clients the statements behind an effect use and own. -/
theorem uses_effect {value : Cell} {effect : Effect P} {op : ThreadOp}
    (member : op ∈ effect.statements native host params value) {object : ObjectId} :
    (op.uses = some object → effect = .constructed object ∨
      ∃ request, effect = .request object request) ∧
      (op.owns = some object → effect = .constructed object) := by
  cases effect with
  | constructed constructed =>
      simp only [Effect.statements, List.mem_cons, List.not_mem_nil, or_false] at member
      rcases member with rfl | rfl | rfl | rfl | rfl <;> simp [ThreadOp.uses, ThreadOp.owns]
  | request asked request =>
      rcases List.mem_cons.mp member with rfl | follows
      · refine ⟨fun used => .inr ⟨request, ?_⟩, fun owned => ?_⟩
        · rw [Option.some.inj used]
        · cases (passes_paho (Threads.living request)).2.symm.trans owned
      · obtain ⟨passes, uses⟩ := uses_afterRequest follows
        refine ⟨fun used => .inr ⟨request, ?_⟩, fun owned => ?_⟩
        · rw [uses used]
        · cases passes.2.symm.trans owned
  | logError error =>
      cases List.mem_singleton.mp member
      refine ⟨fun used => ?_, fun owned => ?_⟩
      · cases used
      · cases owned
  | registered | unregistered | dispatched => cases member

theorem mem_objects {object : ObjectId} :
    object ∈ r.objects ↔ Effect.constructed object ∈ r.effects := by
  unfold NativeReturn.objects
  rw [List.mem_filterMap]
  constructor
  · intro found
    rcases found with ⟨effect, member, is⟩
    split at is
    · cases is
      exact member
    · cases is
  · intro member
    exact ⟨_, member, rfl⟩

/-- The natives that are not `mqtt_create_connect_options`. -/
theorem statements_eq (other : native ≠ .mqttCreateConnectOptions) :
    native.statements host params r =
      r.effects.flatMap (Effect.statements native host params r.value) ++
        r.removed.toList.map fun client => .destroyClient client.object := by
  cases native <;> first | rfl | exact absurd rfl other

/-- A statement of a native uses a client it constructed, asked Paho about, or removed. -/
theorem uses_statements {op : ThreadOp} {object : ObjectId}
    (member : op ∈ native.statements host params r) (used : op.uses = some object) :
    object ∈ r.objects ∨ (∃ request, Effect.request object request ∈ r.effects) ∨
      ∃ client ∈ r.removed.toList, client.object = object := by
  by_cases options : native = .mqttCreateConnectOptions
  · subst options
    cases List.mem_singleton.mp member
    cases used
  rw [statements_eq options] at member
  rcases List.mem_append.mp member with effects | destroys
  · obtain ⟨effect, among, follows⟩ := List.mem_flatMap.mp effects
    rcases (uses_effect follows).1 used with rfl | ⟨request, rfl⟩
    exacts [.inl (mem_objects.mpr among), .inr (.inl ⟨request, among⟩)]
  · obtain ⟨client, among, rfl⟩ := List.mem_map.mp destroys
    exact .inr (.inr ⟨client, among, Option.some.inj used⟩)

theorem objects_of_options (returns : Returns host params g .mqttCreateConnectOptions r) :
    r.objects = [] ∧ r.removed = none := by
  cases returns with
  | requested kind | requestThrew kind | stored kind => cases kind
  | rejected | optionsMade | optionsFailed => exact ⟨rfl, rfl⟩

/-- The statements of a native own the clients it constructed or removed. -/
theorem owns_statements (returns : Returns host params g native r) {object : ObjectId} :
    (∃ op ∈ native.statements host params r, op.owns = some object) ↔
      object ∈ r.objects ∨ ∃ client ∈ r.removed.toList, client.object = object := by
  by_cases options : native = .mqttCreateConnectOptions
  · subst options
    obtain ⟨unbuilt, kept⟩ := objects_of_options returns
    simp [Native.statements, unbuilt, kept, ThreadOp.owns]
  rw [statements_eq options]
  constructor
  · intro owned
    rcases owned with ⟨op, member, owns⟩
    rcases List.mem_append.mp member with effects | destroys
    · obtain ⟨effect, among, follows⟩ := List.mem_flatMap.mp effects
      cases (uses_effect follows).2 owns
      exact .inl (mem_objects.mpr among)
    · obtain ⟨client, among, rfl⟩ := List.mem_map.mp destroys
      exact .inr ⟨client, among, Option.some.inj owns⟩
  · intro owned
    rcases owned with built | ⟨client, among, rfl⟩
    · refine ⟨.emplace r.value object, List.mem_append_left _ ?_, rfl⟩
      exact List.mem_flatMap.mpr ⟨_, mem_objects.mp built, by simp [Effect.statements]⟩
    · refine ⟨.destroyClient client.object, List.mem_append_right _ ?_, rfl⟩
      exact List.mem_map.mpr ⟨client, among, rfl⟩

/-- The statements of a native in the order they use clients. -/
theorem ordered_statements (returns : Returns host params g native r) :
    ThreadOp.discipline.Ordered (native.statements host params r) := by
  have single (op : ThreadOp) : ThreadOp.discipline.Ordered [op] := List.pairwise_singleton ..
  by_cases options : native = .mqttCreateConnectOptions
  · subst options
    exact single _
  have request {value : Cell} {globals : Globals P} {object : ObjectId} {asked : PahoRequest P}
      {others : List (Effect P)}
      (later : ThreadOp.discipline.Ordered
        (others.flatMap (Effect.statements native host params value))) :
      ThreadOp.discipline.Ordered (native.statements host params
        { value, globals, effects := .request object asked :: others }) := by
    rw [Threads.statements_of_request options, ← List.cons_append]
    refine Discipline.Ordered.append (Discipline.ordered_of_passes ?_) later ?_
    all_goals
      intro op member
      have passes : ThreadOp.discipline.Passes op := by
        rcases List.mem_cons.mp member with rfl | follows
        exacts [passes_paho (Threads.living asked), (uses_afterRequest follows).1]
    · exact passes
    · intro below _
      exact passes.below below
  cases returns with
  | rejected | connectUnknown | setUnknown =>
      rw [statements_eq options]
      exact single _
  | optionsFailed | optionsMade => exact absurd rfl options
  | created =>
      simp [Discipline.Ordered, Discipline.Below, ThreadOp.discipline, Native.statements,
        Effect.statements, ThreadOp.last, ThreadOp.owns]
  | @destroyed handle =>
      rw [statements_eq options]
      rcases (g.clients.destroy handle).1 with _ | client
      exacts [.nil, single _]
  | connected | disconnectSent | disconnectQuiet | requested | disconnectThrew =>
      exact request .nil
  | connectThrew | requestThrew => exact request (single _)
  | isConnected | set => exact .nil
  | @stored _ type _ _ client id =>
      have nothing : ((client.setForwardId type id).2.map Effect.unregistered).flatMap
          (Effect.statements (P := P) native host params 1) = [] := by
        simp [Effect.statements, List.flatMap_map]
      rw [statements_eq options, List.flatMap_cons, nothing]
      exact .nil

end Statements

end AmxxMqtt
