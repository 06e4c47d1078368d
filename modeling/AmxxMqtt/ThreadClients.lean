import AmxxMqtt.NativeReturns
import AmxxMqtt.Threads

/-!
# Where each client is

The statements of a client run through its `this`, wherever the client is: in the manager's table,
under construction, or on its way to destruction.  In every reachable state it is in one of these
places only, and the manager has it under one handle, so `Shared.client` finds the very client the
manager returns for that handle.
-/

namespace AmxxMqtt

namespace Shared

variable {P : PahoOptions} {s s' : Shared P} {object : ObjectId} {handle : Int}
  {client : AmxxMqttClient}

/-- The object the manager has under a handle. -/
def objectAt (s : Shared P) (handle : Int) : Option ObjectId :=
  (s.globals.clients.getClient handle).map (·.object)

theorem objectAt_of_live (live : s.globals.clients.getClient handle = some client) :
    s.objectAt handle = some client.object := by
  rw [objectAt, live, Option.map_some]

theorem objectAt_of_handleOf (found : s.handleOf object = some handle) :
    s.objectAt handle = some object := by
  obtain ⟨entry, first, rfl⟩ := Option.map_eq_some_iff.mp found
  have same := List.find?_some first
  have live : s.globals.clients.getClient entry.1 = some entry.2 :=
    AList.mem_lookup_iff.mpr (List.mem_of_find?_eq_some first)
  rw [objectAt_of_live live, of_decide_eq_true same]

theorem handleOf_eq_none_iff :
    s.handleOf object = none ↔ ∀ handle, s.objectAt handle ≠ some object := by
  constructor
  · intro absent handle found
    obtain ⟨client, live, rfl⟩ := Option.map_eq_some_iff.mp found
    have entry := AList.mem_lookup_iff.mp live
    have missing := List.find?_eq_none.mp (Option.map_eq_none_iff.mp absent) _ entry
    exact missing (decide_eq_true rfl)
  · intro absent
    cases found : s.handleOf object with
    | none => rfl
    | some handle => exact absurd (objectAt_of_handleOf found) (absent handle)

/-- Every client has one place, and one handle if the manager has it. -/
structure Listed (s : Shared P) : Prop where
  injective : ∀ {handle other object}, s.objectAt handle = some object →
    s.objectAt other = some object → handle = other
  known : ∀ {handle object}, s.objectAt handle = some object → object ∈ s.constructed
  unlisted : ∀ {object client}, s.unlisted.lookup object = some client →
    client.object = object ∧ object ∈ s.constructed ∧ s.handleOf object = none

namespace Listed

theorem handleOf (listed : s.Listed) (found : s.objectAt handle = some object) :
    s.handleOf object = some handle := by
  cases other : s.handleOf object with
  | none => exact absurd found (handleOf_eq_none_iff.mp other handle)
  | some other' => rw [listed.injective (objectAt_of_handleOf other) found]

/-- The `this` of a client in the manager's table. -/
theorem this (listed : s.Listed) (live : s.globals.clients.getClient handle = some client) :
    s.client client.object = some client := by
  rw [Shared.client, listed.handleOf (objectAt_of_live live)]
  exact live

/-- Only the contents of clients change. -/
theorem of_same (listed : s.Listed) (table : ∀ handle, s'.objectAt handle = s.objectAt handle)
    (others : ∀ object, (s'.unlisted.lookup object).map (·.object) =
      (s.unlisted.lookup object).map (·.object))
    (constructed : s'.constructed = s.constructed) : s'.Listed where
  injective one other := listed.injective (table _ ▸ one) (table _ ▸ other)
  known found := constructed ▸ listed.known (table _ ▸ found)
  unlisted {object client} found := by
    have projected := others object
    rw [found, Option.map_some] at projected
    obtain ⟨old, before, same⟩ := Option.map_eq_some_iff.mp projected.symm
    obtain ⟨own, known, absent⟩ := listed.unlisted before
    refine ⟨same ▸ own, constructed ▸ known, handleOf_eq_none_iff.mpr fun handle => ?_⟩
    rw [table]
    exact handleOf_eq_none_iff.mp absent handle

end Listed

theorem objectAt_modifyBase (object : ObjectId)
    (f : MqttClient BoundHandler → MqttClient BoundHandler) (s : Shared P) (handle : Int) :
    (s.modifyBase object f).objectAt handle = s.objectAt handle := by
  unfold modifyBase
  cases this : s.client object with
  | none => rfl
  | some client =>
      cases listed : s.handleOf object with
      | none => simp only [setClient, listed, objectAt]
      | some place =>
          have live : s.globals.clients.getClient place = some client := by
            simpa only [Shared.client, listed] using this
          simp only [setClient, listed, objectAt, MqttClientMgr.setClient, MqttClientMgr.getClient,
            Table.lookup_insert_iff]
          split
          · rename_i same
            rw [same]
            exact (objectAt_of_live live).symm
          · rfl

theorem unlisted_modifyBase (object : ObjectId)
    (f : MqttClient BoundHandler → MqttClient BoundHandler) (s : Shared P) (other : ObjectId) :
    ((s.modifyBase object f).unlisted.lookup other).map (·.object) =
      (s.unlisted.lookup other).map (·.object) := by
  unfold modifyBase
  cases this : s.client object with
  | none => rfl
  | some client =>
      cases listed : s.handleOf object with
      | some place => simp only [setClient, listed]
      | none =>
          have found : s.unlisted.lookup object = some client := by
            simpa only [Shared.client, listed] using this
          simp only [setClient, listed, Table.lookup_insert_iff]
          split
          · rename_i same
            rw [same, found]
            rfl
          · rfl

theorem Listed.modifyBase (listed : s.Listed) (object : ObjectId)
    (f : MqttClient BoundHandler → MqttClient BoundHandler) : (s.modifyBase object f).Listed := by
  refine listed.of_same (objectAt_modifyBase object f s) (unlisted_modifyBase object f s) ?_
  unfold Shared.modifyBase setClient
  split
  · split <;> rfl
  · rfl

theorem lookup_unlist (removed : List AmxxMqttClient) (s : Shared P) {object : ObjectId}
    {client : AmxxMqttClient} (found : (s.unlist removed).unlisted.lookup object = some client) :
    (client ∈ removed ∧ client.object = object) ∨ s.unlisted.lookup object = some client := by
  unfold Shared.unlist at found
  simp only at found
  generalize s.unlisted = unlisted at found ⊢
  induction removed generalizing unlisted with
  | nil => exact .inr found
  | cons first removed ih =>
      rw [List.foldl_cons] at found
      rcases ih _ found with ⟨among, same⟩ | before
      · exact .inl ⟨List.mem_cons_of_mem _ among, same⟩
      · rw [Table.lookup_insert_iff] at before
        split at before
        · rename_i here
          cases before
          exact .inl ⟨List.mem_cons_self, here.symm⟩
        · exact .inr before

/-- Clients leave the manager's table. -/
theorem Listed.unlist (listed : s.Listed) {removed : List AmxxMqttClient}
    {clients : MqttClientMgr}
    (kept : ∀ {handle client}, clients.getClient handle = some client →
      s.globals.clients.getClient handle = some client ∧ client ∉ removed)
    (taken : ∀ client ∈ removed, ∃ handle, s.globals.clients.getClient handle = some client) :
    ({ s with globals := { s.globals with clients } }.unlist removed).Listed := by
  let left : Shared P := { s with globals := { s.globals with clients } }
  have before {handle : Int} {object : ObjectId} (found : left.objectAt handle = some object) :
      ∃ client, s.globals.clients.getClient handle = some client ∧ client.object = object ∧
        client ∉ removed := by
    obtain ⟨client, live, own⟩ := Option.map_eq_some_iff.mp found
    exact ⟨client, (kept live).1, own, (kept live).2⟩
  have place {handle : Int} {object : ObjectId} (found : left.objectAt handle = some object) :
      s.objectAt handle = some object := by
    obtain ⟨client, live, rfl, _⟩ := before found
    exact objectAt_of_live live
  refine ⟨fun one other => listed.injective (place one) (place other),
    fun found => listed.known (place found), fun {object client} found => ?_⟩
  rcases lookup_unlist removed left found with ⟨among, rfl⟩ | earlier
  · obtain ⟨handle, live⟩ := taken client among
    have here := objectAt_of_live live
    refine ⟨rfl, listed.known here, handleOf_eq_none_iff.mpr fun other still => ?_⟩
    obtain ⟨same, liveOther, own, absent⟩ := before still
    cases listed.injective here (place still)
    cases live.symm.trans liveOther
    exact absent among
  · obtain ⟨own, known, absent⟩ := listed.unlisted earlier
    exact ⟨own, known, handleOf_eq_none_iff.mpr fun handle still =>
      handleOf_eq_none_iff.mp absent handle (place still)⟩

/-- A client under construction. -/
theorem Listed.construct (listed : s.Listed) (fresh : object ∉ s.constructed) :
    { s with
      unlisted := s.unlisted.insert object { object }
      constructed := object :: s.constructed : Shared P }.Listed where
  injective := listed.injective
  known found := List.mem_cons_of_mem _ (listed.known found)
  unlisted {other client} found := by
    rw [Table.lookup_insert_iff] at found
    split at found
    · rename_i same
      cases found
      refine ⟨same.symm, same ▸ List.mem_cons_self, handleOf_eq_none_iff.mpr fun _ here => ?_⟩
      exact fresh (same ▸ listed.known here)
    · obtain ⟨own, known, absent⟩ := listed.unlisted found
      exact ⟨own, List.mem_cons_of_mem _ known, absent⟩

/-- A client is gone. -/
theorem Listed.erase (listed : s.Listed) (object : ObjectId) :
    { s with unlisted := s.unlisted.erase object }.Listed where
  injective := listed.injective
  known := listed.known
  unlisted {other client} found := by
    rw [Table.lookup_erase_iff] at found
    split at found
    · cases found
    · exact listed.unlisted found

/-- A client under construction enters the manager's table. -/
theorem Listed.emplace (listed : s.Listed) {handle : Int} {nextHandle : Nat}
    (found : s.unlisted.lookup object = some client) :
    { s with
      globals := { s.globals with
        clients := ⟨MqttClientMgr.emplace handle client s.globals.clients.clients, nextHandle⟩ }
      unlisted := s.unlisted.erase object }.Listed := by
  obtain ⟨own, known, absent⟩ := listed.unlisted found
  have nowhere := handleOf_eq_none_iff.mp absent
  let entered : Shared P := { s with
    globals := { s.globals with
      clients := ⟨MqttClientMgr.emplace handle client s.globals.clients.clients, nextHandle⟩ }
    unlisted := s.unlisted.erase object }
  have place {other : Int} {object' : ObjectId} (here : entered.objectAt other = some object') :
      s.objectAt other = some object' ∨ other = handle ∧ object' = object := by
    simp only [entered, objectAt, MqttClientMgr.getClient, MqttClientMgr.emplace] at here
    split at here
    · exact .inl here
    · rw [Table.lookup_insert_iff] at here
      split at here
      · rename_i same
        rw [Option.map_some, own] at here
        exact .inr ⟨same, (Option.some.inj here).symm⟩
      · exact .inl here
  refine ⟨fun {one other object'} first second => ?_, fun here => ?_,
    fun {object' client'} still => ?_⟩
  · rcases place first with before | ⟨rfl, rfl⟩ <;> rcases place second with earlier | ⟨rfl, same⟩
    · exact listed.injective before earlier
    · exact absurd (same ▸ before) (nowhere one)
    · exact absurd earlier (nowhere other)
    · rfl
  · rcases place here with before | ⟨_, rfl⟩
    exacts [listed.known before, known]
  · rw [Table.lookup_erase_iff] at still
    split at still
    · cases still
    · rename_i different
      obtain ⟨own', known', absent'⟩ := listed.unlisted still
      refine ⟨own', known', handleOf_eq_none_iff.mpr fun other here => ?_⟩
      rcases place here with before | ⟨_, same⟩
      exacts [handleOf_eq_none_iff.mp absent' other before, different same]

/-- Every statement keeps the clients apart. -/
theorem Listed.exec (listed : s.Listed) {op : ThreadOp} {statements : List ThreadOp}
    (executed : op.exec s = some (s', statements)) : s'.Listed := by
  cases op with
  | foreign | paho | lock | unlock => cases executed
  | drain remaining =>
      cases remaining <;> cases executed <;> exact listed
  | takeFront | executeCallback | copyHandler | makeIndex =>
      simp only [ThreadOp.exec] at executed
      split at executed <;> cases executed <;>
        exact listed.of_same (fun _ => rfl) (fun _ => rfl) rfl
  | buildOptions =>
      simp only [ThreadOp.exec] at executed
      split at executed
      · split at executed <;> cases executed <;>
          exact listed.of_same (fun _ => rfl) (fun _ => rfl) rfl
      · cases executed
        exact listed
  | storeConnected | storeHandler | setStopping =>
      cases executed
      exact listed.modifyBase _ _
  | emplace handle object =>
      simp only [ThreadOp.exec] at executed
      split at executed
      · cases executed
        exact listed
      · cases executed
        exact listed.emplace ‹_›
  | resetClients =>
      cases executed
      refine listed.unlist (fun live => ?_) fun client among => Table.mem_values_iff.mp among
      cases (AList.lookup_empty _).symm.trans live
  | _ =>
      cases executed
      exact listed.of_same (fun _ => rfl) (fun _ => rfl) rfl

end Shared

namespace Threads

variable {P : PahoOptions} {n : Nat} {s s' : Threads P n} {native : Native} {host : Host}
  {params : List Cell} {r : NativeReturn P}

theorem entered_cases (native : Native) (globals : Globals P) (r : NativeReturn P) :
    native.entered globals r = globals ∨ native.entered globals r = r.globals := by
  unfold Native.entered
  split
  · exact .inl rfl
  · split
    exacts [.inl rfl, .inr rfl]

/-- A native that constructs and removes no client. -/
theorem listed_of_same (listed : s.shared.Listed) (unbuilt : r.objects = [])
    (kept : r.removed = none)
    (same : ∀ handle, ({ s.shared with globals := r.globals } : Shared P).objectAt handle =
      s.shared.objectAt handle) :
    (s.enterNative native host params r).shared.Listed := by
  simp only [enterNative, push, unbuilt, kept, List.foldl_nil, List.nil_append, Option.toList_none,
    Shared.unlist]
  refine listed.of_same (fun handle => ?_) (fun _ => rfl) rfl
  rcases entered_cases native s.shared.globals r with globals | globals
  · simp only [Shared.objectAt, globals]
  · simpa only [Shared.objectAt, globals] using same handle

theorem enterNative_listed (listed : s.shared.Listed)
    (returns : Returns host params s.shared.globals native r)
    (fresh : ∀ object ∈ r.objects, object ∉ s.shared.constructed) :
    (s.enterNative native host params r).shared.Listed := by
  cases returns with
  | created made => exact listed.construct (fresh _ List.mem_cons_self)
  | @destroyed handle arg =>
      refine listed.unlist (fun {other client} live => ?_) fun client among =>
        ⟨handle, Option.mem_toList.mp among⟩
      simp only [MqttClientMgr.destroy, MqttClientMgr.getClient, Table.lookup_erase_iff] at live
      split at live
      · cases live
      · rename_i different
        refine ⟨live, fun among => different ?_⟩
        exact listed.injective (Shared.objectAt_of_live live)
          (Shared.objectAt_of_live (Option.mem_toList.mp among))
  | @stored native type handle name client id kind arg nameArg live registered valid =>
      refine listed_of_same listed ?_ rfl fun other => ?_
      · simp [NativeReturn.objects]
      · simp only [Shared.objectAt, MqttClientMgr.setClient, MqttClientMgr.getClient,
          Table.lookup_insert_iff]
        split
        · rename_i same
          rw [same, Option.map_some, AmxxMqttClient.setForwardId_object]
          exact (Shared.objectAt_of_live live).symm
        · rfl
  | _ => exact listed_of_same listed rfl rfl fun _ => rfl

theorem step_listed {action : ThreadAction n} (taken : s.step action = some s')
    (listed : s.shared.Listed) : s'.shared.Listed := by
  cases steps taken with
  | exec top executed => exact listed.exec executed
  | native callable invoked fresh => exact enterNative_listed listed (Native.returns invoked) fresh
  | @pahoRet t object operation shared rest top destroyed left =>
      rcases left with rfl | rfl
      exacts [listed, listed.erase object]
  | lock | unlock | ret | entered | callback | dispatch => exact listed

theorem run_listed {actions : List (ThreadAction n)}
    (ran : Transition.run step initial actions = some s) : s.shared.Listed := by
  let listed := fun s : Threads P n => s.shared.Listed
  have kept : ∀ {s action s'}, True → s.step action = some s' → listed s → listed s' :=
    fun _ taken before => step_listed taken before
  have empty : ∀ handle, (initial : Threads P n).shared.objectAt handle = none := fun _ => rfl
  have initially : listed initial := by
    refine ⟨fun {handle _ _} found => ?_, fun {handle _} found => ?_, fun found => ?_⟩
    · cases (empty handle).symm.trans found
    · cases (empty handle).symm.trans found
    · cases (AList.lookup_empty _).symm.trans found
  have last : listed s := Transition.run_invariant kept ran (fun _ _ => True.intro) initially
  exact last

end Threads

end AmxxMqtt
