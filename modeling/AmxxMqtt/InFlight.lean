import AmxxMqtt.ClientLifetimes

/-!
# Events in flight

Between the critical section that takes an event off the queue and its delivery the event is in
flight.  Only the game thread has events in flight, and nothing stands above one on its stack but
the release of `callbackMutex`: whatever else the game thread does, there is none.

`Regular` is `Tracked` with this, and with the forward ids of a client under construction, which
has none.
-/

namespace AmxxMqtt

/-- The event the statement delivers. -/
def ThreadOp.delivers : ThreadOp → Option CallbackEvent
  | .executeCallback event => some event
  | _ => none

def ThreadOp.unlocks : ThreadOp → Bool
  | .unlock _ => true
  | _ => false

/-- The statement that puts an event in flight. -/
def ThreadOp.takes : ThreadOp → Bool
  | .takeFront _ => true
  | _ => false

def flight (stack : List ThreadOp) : List CallbackEvent :=
  stack.filterMap ThreadOp.delivers

/-- Only releases stand above an event in flight. -/
def Orderly (stack : List ThreadOp) : Prop :=
  stack.Pairwise fun above below => below.delivers = none ∨ above.unlocks = true

section Stacks

variable {op : ThreadOp} {statements rest : List ThreadOp}

theorem flight_eq_nil_iff : flight rest = [] ↔ ∀ op ∈ rest, op.delivers = none :=
  List.filterMap_eq_nil_iff

@[simp] theorem flight_append (statements rest : List ThreadOp) :
    flight (statements ++ rest) = flight statements ++ flight rest :=
  List.filterMap_append

theorem flight_cons (still : op.delivers = none) : flight (op :: rest) = flight rest :=
  List.filterMap_cons_none still

/-- Below a statement that is no release nothing is in flight. -/
theorem Orderly.settled (orderly : Orderly (op :: rest)) (works : op.unlocks = false) :
    flight rest = [] := by
  refine flight_eq_nil_iff.mpr fun below member => ?_
  rcases (List.pairwise_cons.mp orderly).1 below member with still | releases
  · exact still
  · cases works.symm.trans releases

theorem Orderly.append (orderly : Orderly statements) (settled : flight rest = []) :
    Orderly (statements ++ rest) := by
  have still := flight_eq_nil_iff.mp settled
  refine List.pairwise_append.mpr ⟨orderly, ?_, fun _ _ below member => .inl (still below member)⟩
  exact List.pairwise_iff_forall_sublist.mpr fun {above below} sub =>
    .inl (still below (sub.subset (by simp)))

theorem orderly_of_settled (settled : flight rest = []) : Orderly rest :=
  List.nil_append rest ▸ Orderly.append .nil settled

end Stacks

/-- Only the critical section of the loop puts an event in flight. -/
theorem ThreadOp.exec_flight {P : PahoOptions} {s s' : Shared P} {op : ThreadOp}
    {statements : List ThreadOp} (executed : op.exec s = some (s', statements)) :
    Orderly statements ∧ (op.takes = false → flight statements = []) := by
  have settled (nothing : flight statements = []) :
      Orderly statements ∧ (op.takes = false → flight statements = []) :=
    ⟨orderly_of_settled nothing, fun _ => nothing⟩
  cases op with
  | foreign | paho | lock | unlock => cases executed
  | takeFront remaining =>
      refine ⟨?_, fun other => nomatch other⟩
      simp only [exec] at executed
      split at executed <;> cases executed <;> simp [Orderly, delivers, unlocks]
  | drain remaining =>
      cases remaining <;> cases executed <;> exact settled rfl
  | executeCallback | copyHandler | makeIndex | emplace =>
      simp only [exec] at executed
      split at executed <;> cases executed <;> exact settled rfl
  | buildOptions =>
      simp only [exec] at executed
      split at executed
      · split at executed <;> cases executed <;> exact settled rfl
      · cases executed
        exact settled rfl
  | resetClients =>
      cases executed
      refine settled (flight_eq_nil_iff.mpr fun op member => ?_)
      obtain ⟨client, _, rfl⟩ := List.mem_map.mp member
      rfl
  | _ =>
      cases executed
      exact settled rfl

theorem delivers_of_producing {op : ThreadOp} (producer : op.producing = true) :
    op.delivers = none := by
  cases op <;> first | rfl | cases producer

theorem flight_body (call : GameCall) : flight (call.body.map GameOp.statement) = [] := by
  cases call <;> rfl

theorem flight_callback (object : ObjectId) (callback : PahoCallback) :
    flight (callback.statements object) = [] :=
  flight_eq_nil_iff.mpr fun op member =>
    delivers_of_producing (PahoCallback.producing_statements op member)

theorem delivers_effect {P : PahoOptions} {native : Native} {host : Host} {params : List Cell}
    {value : Cell} {effect : Effect P} {op : ThreadOp}
    (member : op ∈ effect.statements native host params value) : op.delivers = none := by
  cases effect with
  | constructed object =>
      simp only [Effect.statements, List.mem_cons, List.not_mem_nil, or_false] at member
      rcases member with rfl | rfl | rfl | rfl | rfl <;> rfl
  | request object asked =>
      rcases List.mem_cons.mp member with rfl | follows
      · rfl
      · unfold Native.afterRequest at follows
        split at follows
        · cases List.mem_singleton.mp follows
          rfl
        · split at follows
          · cases List.mem_singleton.mp follows
            rfl
          · cases follows
        · cases follows
  | logError error =>
      cases List.mem_singleton.mp member
      rfl
  | registered | unregistered | dispatched => cases member

theorem flight_native {P : PahoOptions} (native : Native) (host : Host) (params : List Cell)
    (r : NativeReturn P) : flight (native.statements host params r) = [] := by
  refine flight_eq_nil_iff.mpr fun op member => ?_
  by_cases options : native = .mqttCreateConnectOptions
  · subst options
    cases List.mem_singleton.mp member
    rfl
  rw [statements_eq options] at member
  rcases List.mem_append.mp member with effects | destroys
  · obtain ⟨effect, _, follows⟩ := List.mem_flatMap.mp effects
    exact delivers_effect follows
  · obtain ⟨client, _, rfl⟩ := List.mem_map.mp destroys
    rfl

/-! ## Clients under construction -/

/-- No forward has been stored. -/
def AmxxMqttClient.Bare (client : AmxxMqttClient) : Prop :=
  ∀ type, client.forwardId type = -1

theorem AmxxMqttClient.bare_construct (object : ObjectId) :
    ({ object } : AmxxMqttClient).Bare := by
  intro type
  cases type <;> rfl

namespace Shared

variable {P : PahoOptions} {s s' : Shared P} {object : ObjectId}

/-- The client that is not in the table has no forwards. -/
def bare (s : Shared P) (object : ObjectId) : Prop :=
  ∀ client, s.unlisted.lookup object = some client → client.Bare

theorem bare_modifyBase (target : ObjectId)
    (f : MqttClient BoundHandler → MqttClient BoundHandler) (bare : s.bare object) :
    (s.modifyBase target f).bare object := by
  unfold modifyBase
  cases this : s.client target with
  | none => exact bare
  | some client =>
      cases place : s.handleOf target with
      | some handle =>
          simp only [setClient, place]
          exact bare
      | none =>
          have found : s.unlisted.lookup target = some client := by
            simpa only [Shared.client, place] using this
          simp only [setClient, place]
          intro after live
          rw [Table.lookup_insert_iff] at live
          split at live
          · rename_i same
            subst same
            cases live
            have before := bare client found
            intro type
            cases type
            exacts [before .connected, before .message, before .connectionLost,
              before .disconnected]
          · exact bare after live

theorem bare_exec {op : ThreadOp} {statements : List ThreadOp} (stays : op.movesClients = false)
    (executed : op.exec s = some (s', statements)) (bare : s.bare object) : s'.bare object := by
  cases op with
  | foreign | paho | lock | unlock => cases executed
  | emplace | resetClients => cases stays
  | drain remaining => cases remaining <;> cases executed <;> exact bare
  | takeFront | executeCallback | copyHandler | makeIndex =>
      simp only [ThreadOp.exec] at executed
      split at executed <;> cases executed <;> exact bare
  | buildOptions =>
      simp only [ThreadOp.exec] at executed
      split at executed
      · split at executed <;> cases executed <;> exact bare
      · cases executed
        exact bare
  | storeConnected | storeHandler | setStopping =>
      cases executed
      exact bare_modifyBase _ _ bare
  | _ =>
      cases executed
      exact bare

theorem bare_erase {target : ObjectId} (bare : s.bare object) :
    ({ s with unlisted := s.unlisted.erase target } : Shared P).bare object := by
  intro client live
  have found : (s.unlisted.erase target).lookup object = some client := live
  rw [Table.lookup_erase_iff] at found
  split at found
  · cases found
  · exact bare client found

end Shared

namespace Threads

open Lifetimes

variable {P : PahoOptions} {n : Nat} {s s' : Threads P n} {t : Thread n}

/-- What every run keeps of the clients and of the events in flight. -/
structure Regular (s : Threads P n) : Prop where
  tracked : s.Tracked
  orderly : Orderly (s.stack .game)
  bare : ∀ {handle object}, .emplace handle object ∈ s.stack .game → s.shared.bare object

theorem regular_initial : (initial : Threads P n).Regular where
  tracked := tracked_initial
  orderly := .nil
  bare member := absurd member List.not_mem_nil

theorem settled_of_away (orderly : Orderly (s.stack .game)) (away : s.away .game = true) :
    flight (s.stack .game) = [] := by
  unfold Threads.away at away
  split at away
  · rename_i empty
    rw [empty]
    rfl
  · rename_i rest top
    rw [top] at orderly ⊢
    exact (flight_cons rfl).trans (orderly.settled rfl)
  · rename_i object operation rest top
    rw [top] at orderly ⊢
    exact (flight_cons rfl).trans (orderly.settled rfl)
  · cases away

theorem orderly_push (orderly : Orderly (s.stack .game)) (away : s.away t = true)
    {statements : List ThreadOp} (settled : flight statements = []) :
    Orderly (Function.update s.stack t (statements ++ s.stack t) .game) := by
  cases t with
  | worker i => exact orderly
  | game =>
      rw [Function.update_self]
      exact Orderly.append (orderly_of_settled settled) (settled_of_away orderly away)

theorem orderly_pop (orderly : Orderly (s.stack .game)) {op : ThreadOp} {rest : List ThreadOp}
    (top : s.stack t = op :: rest) : Orderly (Function.update s.stack t rest .game) := by
  cases t with
  | worker i => exact orderly
  | game =>
      rw [top] at orderly
      rw [Function.update_self]
      exact (List.pairwise_cons.mp orderly).2

/-- A thread's top statement, which is no release, is replaced by what it leads to. -/
theorem orderly_replace (orderly : Orderly (s.stack .game)) {op : ThreadOp}
    {statements rest : List ThreadOp} (top : s.stack t = op :: rest) (works : op.unlocks = false)
    (within : Orderly statements) :
    Orderly (Function.update s.stack t (statements ++ rest) .game) := by
  cases t with
  | worker i => exact orderly
  | game =>
      rw [top] at orderly
      rw [Function.update_self]
      exact within.append (orderly.settled works)

theorem step_orderly {action : ThreadAction n} (taken : s.step action = some s')
    (orderly : Orderly (s.stack .game)) : Orderly (s'.stack .game) := by
  cases steps taken with
  | lock top | unlock top | ret top | pahoRet top =>
      exact orderly_pop orderly top
  | @exec t op shared statements rest top executed =>
      refine orderly_replace orderly top ?_ (ThreadOp.exec_flight executed).1
      cases op with
      | unlock => cases executed
      | _ => rfl
  | native callable =>
      rw [enterNative_stack]
      exact orderly_push orderly (away_of_callable callable) (flight_native ..)
  | @entered call callable =>
      exact orderly_push orderly (away_of_callable callable) (flight_body call)
  | @callback t object callback receptive =>
      exact orderly_push orderly (away_of_receptive receptive) (flight_callback object callback)
  | dispatch away => exact orderly_push orderly away rfl

/-- A client a native has just constructed has no forwards. -/
theorem bare_enterNative {native : Native} {host : Host} {params : List Cell}
    {r : NativeReturn P} (returns : Returns host params s.shared.globals native r)
    {handle : Int} {object : ObjectId}
    (member : .emplace handle object ∈ native.statements host params r) :
    (s.enterNative native host params r).shared.bare object := by
  have built : object ∈ r.objects ∨ ∃ client ∈ r.removed.toList, client.object = object :=
    (owns_statements returns).mp ⟨_, member, rfl⟩
  cases returns with
  | @created handle constructed clients made =>
      have same : object = constructed := by simpa [NativeReturn.objects] using built
      subst same
      intro client live
      have found : (s.shared.unlisted.insert object ({ object } : AmxxMqttClient)).lookup object =
          some client := live
      rw [AList.lookup_insert] at found
      cases found
      exact AmxxMqttClient.bare_construct object
  | destroyed arg => simp [Native.statements] at member
  | stored => simp [NativeReturn.objects] at built
  | _ => simp [NativeReturn.objects, rejection] at built

theorem step_bare {action : ThreadAction n} (taken : s.step action = some s')
    (regular : s.Regular) {handle : Int} {object : ObjectId}
    (member : .emplace handle object ∈ s'.stack .game) : s'.shared.bare object := by
  have tracked := regular.tracked
  -- a step that adds no `emplace` to a stack
  have replaced {t : Thread n} {stack : List ThreadOp}
      (pending : .emplace handle object ∈ stack → .emplace handle object ∈ s.stack t)
      (member : .emplace handle object ∈ Function.update s.stack t stack .game) :
      s.shared.bare object := by
    rcases mem_update (v := s.lifetimes) member with ⟨rfl, new⟩ | ⟨_, old⟩
    exacts [regular.bare (pending new), regular.bare old]
  have below {t : Thread n} {op : ThreadOp} {rest : List ThreadOp} (top : s.stack t = op :: rest)
      {other : ThreadOp} (among : other ∈ rest) : other ∈ s.stack t :=
    top ▸ List.mem_cons_of_mem _ among
  cases steps taken with
  | lock top | unlock top | ret top => exact replaced (below top) member
  | @pahoRet t freed operation shared rest top destroyed left =>
      have before := replaced (below top) member
      rcases left with rfl | rfl
      exacts [before, Shared.bare_erase before]
  | @exec t op shared statements rest top executed =>
      cases moves : op.movesClients with
      | false =>
          refine Shared.bare_exec moves executed (replaced (fun among => ?_) member)
          rcases List.mem_append.mp among with new | old
          exacts [absurd new (emplace_notMem executed), below top old]
      | true =>
          -- nothing below these uses a client
          cases game_of_moves tracked.sound top moves
          have ordered := tracked.alive.ordered
          rw [show s.lifetimes.stack .game = _ from top] at ordered
          simp only [Function.update_self] at member
          have final : op.last = true := by
            cases op with
            | emplace | resetClients => rfl
            | _ => cases moves
          rcases List.mem_append.mp member with new | old
          · exact absurd new (emplace_notMem executed)
          · cases (ordered.below_top _ old).1 final
  | native callable invoked =>
      rw [enterNative_stack, Function.update_self] at member
      rcases List.mem_append.mp member with new | old
      · exact bare_enterNative (Native.returns invoked) new
      · cases unused_of_callable tracked callable _ old
  | entered callable =>
      rw [push_stack, Function.update_self] at member
      rcases List.mem_append.mp member with new | old
      · cases uses_body _ new
      · exact regular.bare old
  | @callback t target callback =>
      refine replaced (fun among => ?_) member
      rcases List.mem_append.mp among with new | old
      · cases PahoCallback.producing_statements _ new
      · exact old
  | dispatch =>
      refine replaced (fun among => ?_) member
      rcases List.mem_append.mp among with new | old
      · cases List.mem_singleton.mp new
      · exact old

theorem step_regular {action : ThreadAction n} (taken : s.step action = some s')
    (regular : s.Regular) : s'.Regular where
  tracked := step_tracked taken regular.tracked
  orderly := step_orderly taken regular.orderly
  bare member := step_bare taken regular member

end Threads

end AmxxMqtt
