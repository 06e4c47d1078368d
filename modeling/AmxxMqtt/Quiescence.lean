import Mathlib.Data.Fintype.Option
import AmxxMqtt.ClientLifetimes
import AmxxMqtt.Lib.Potential

/-!
# The module comes to rest

Every statement of the module leads to finitely many others, a batch to at most
`maxCallbacksPerFrame` deliveries and a reset to one destruction for each client in the table.  So
each entry into the module brings a bounded number of steps, and as long as a call has not returned
some thread can take one: a waiting lock has a holder that is not waiting, and the destruction of a
client waits only for callbacks that need no one else.
-/

namespace AmxxMqtt

open Potential Locks

/-- How many steps a statement takes, with those it leads to.  A client in the table has paid for
its destruction when it entered. -/
def ThreadOp.cost : ThreadOp → Nat
  | .startCallbackDispatcher | .stopCallbackDispatcher | .setHandler _ _ _ | .makeIndex _ => 4
  | .processPendingCallbacks => 6 * CallbackQueue.maxCallbacksPerFrame + 5
  | .readSize => 6 * CallbackQueue.maxCallbacksPerFrame + 3
  | .drain remaining => 6 * remaining + 1
  | .takeFront remaining => 6 * remaining + 5
  | .executeCallback _ | .buildOptions _ _ => 2
  | .emplace _ _ | .makeOptions _ => 6
  | .destroyClient _ => 5
  | op => op.work

/-- The steps that an entry into the module can bring. -/
def GameCall.credit : GameCall → Nat
  | .native _ _ _ => 22
  | .onServerFrame | .processPendingCallbacks => 6 * CallbackQueue.maxCallbacksPerFrame + 6
  | _ => 7

def ThreadAction.credit {n : Nat} : ThreadAction n → Nat
  | .run _ | .ret _ => 0
  | .call entry => entry.credit
  | .callback _ _ _ => 12
  | .dispatch _ _ => 4

/-- A step of a call that is in progress: of the module, or a return to it. -/
def ThreadAction.internal {n : Nat} : ThreadAction n → Bool
  | .run _ | .ret _ => true
  | _ => false

def Thread.equiv (n : Nat) : Option (Fin n) ≃ Thread n where
  toFun
    | none => .game
    | some i => .worker i
  invFun
    | .game => none
    | .worker i => some i
  left_inv t := by cases t <;> rfl
  right_inv t := by cases t <;> rfl

instance {n : Nat} : Fintype (Thread n) := .ofEquiv _ (Thread.equiv n)

variable {P : PahoOptions}

/-- The destructions the clients in the table have paid for. -/
def Shared.reserve (s : Shared P) : Nat := 5 * Table.size s.globals.clients.clients

theorem reserve_modifyBase (shared : Shared P) (object : ObjectId)
    (f : MqttClient BoundHandler → MqttClient BoundHandler) :
    (shared.modifyBase object f).reserve = shared.reserve :=
  congrArg (5 * ·) (Threads.size_modifyBase shared object f)

/-- A statement costs more than those it leads to. -/
theorem ThreadOp.exec_cost {s s' : Shared P} {op : ThreadOp} {statements : List ThreadOp}
    (executed : op.exec s = some (s', statements)) :
    weight cost statements + s'.reserve < op.cost + s.reserve := by
  cases op with
  | foreign | paho | lock | unlock => cases executed
  | drain remaining =>
      cases remaining <;> cases executed <;> simp [cost, work]
      omega
  | readSize =>
      cases executed
      have most : s.globals.queue.batchSize ≤ CallbackQueue.maxCallbacksPerFrame :=
        Nat.min_le_right ..
      simp [cost, work]
      omega
  | takeFront remaining =>
      simp only [exec] at executed
      split at executed <;> cases executed
      · simp [cost, work]
      · simp [cost, work, Shared.reserve, Shared.setQueue]
        omega
  | executeCallback | copyHandler =>
      simp only [exec] at executed
      split at executed <;> cases executed <;> simp [cost, work]
  | makeIndex =>
      simp only [exec] at executed
      split at executed <;> cases executed <;> simp [cost, work, Shared.reserve, Shared.setOptions]
  | buildOptions =>
      simp only [exec] at executed
      split at executed
      · split at executed <;> cases executed <;>
          simp [cost, work, Shared.reserve, Shared.setOptions]
      · cases executed
        simp [cost]
  | emplace handle object =>
      simp only [exec] at executed
      split at executed
      · cases executed
        simp [cost]
      · rename_i client found
        cases executed
        have one : Table.size
            (MqttClientMgr.emplace handle client s.globals.clients.clients) ≤
            Table.size s.globals.clients.clients + 1 := by
          unfold MqttClientMgr.emplace
          split
          · omega
          · rw [Table.size_insert_of_notMem ‹_›]
        simp only [Shared.reserve, weight_nil, cost]
        omega
  | resetClients =>
      cases executed
      have each : weight cost ((Table.values s.globals.clients.clients).map fun client =>
          ThreadOp.destroyClient client.object) = s.reserve := by
        rw [weight, List.map_map, Shared.reserve, ← Table.length_values]
        simp [Function.comp_def, cost, Nat.mul_comm]
      rw [each]
      simp [Shared.reserve, Shared.unlist, cost, work]
  | processPendingCallbacks =>
      cases executed
      simp [cost, work]
      omega
  | storeConnected | storeHandler | setStopping =>
      cases executed
      simp [cost, work, reserve_modifyBase]
  | _ =>
      cases executed
      simp [cost, work, guarded, Shared.reserve, Shared.setQueue, Shared.setOptions,
        Shared.setFrameHook]

/-! ## What an entry brings -/

def Effect.credit : Effect P → Nat
  | .constructed _ => 22
  | .request _ _ => 11
  | .logError _ => 1
  | _ => 0

theorem Native.afterRequest_cost {native : Native} {host : Host} {params : List Cell}
    {object : ObjectId} :
    weight ThreadOp.cost (native.afterRequest host params object) ≤ 10 := by
  unfold Native.afterRequest
  split
  · simp [ThreadOp.cost, ThreadOp.work]
  · split <;> simp [ThreadOp.cost, ThreadOp.work]
  · simp

theorem Effect.statements_cost {native : Native} {host : Host} {params : List Cell} {value : Cell}
    (effect : Effect P) :
    weight ThreadOp.cost (effect.statements native host params value) ≤ effect.credit := by
  cases effect with
  | request object asked =>
      have follows : weight ThreadOp.cost (native.afterRequest host params object) ≤ 10 :=
        Native.afterRequest_cost
      simp only [statements, weight_cons, ThreadOp.cost, ThreadOp.work, credit]
      omega
  | _ => simp [statements, ThreadOp.cost, ThreadOp.work, credit]

theorem Native.statements_cost {native : Native} {host : Host} {params : List Cell}
    {r : NativeReturn P} : weight ThreadOp.cost (native.statements host params r) ≤
      max 6 ((r.effects.map Effect.credit).sum + 5 * r.removed.toList.length) := by
  unfold Native.statements
  split
  · exact Nat.le_max_left ..
  · refine Nat.le_trans ?_ (Nat.le_max_right ..)
    have destroys : weight ThreadOp.cost (r.removed.toList.map fun client =>
        .destroyClient client.object) = 5 * r.removed.toList.length := by
      cases r.removed <;> rfl
    rw [weight_append, destroys]
    refine Nat.add_le_add_right ?_ _
    induction r.effects with
    | nil => exact Nat.le_refl 0
    | cons effect effects ih =>
        rw [List.flatMap_cons, weight_append, List.map_cons, List.sum_cons]
        exact Nat.add_le_add effect.statements_cost ih

section Native

variable {native : Native} {host : Host} {params : List Cell} {g : Globals P} {r : NativeReturn P}

theorem Returns.effects_credit (returns : Returns host params g native r) :
    (r.effects.map Effect.credit).sum ≤ 22 := by
  cases returns with
  | stored => simp [Function.comp_def, Effect.credit]
  | rejected | connectUnknown | optionsFailed | setUnknown => simp [rejection, Effect.credit]
  | _ => simp [Effect.credit]

/-- The client a native removes is missing from the table when the native is entered. -/
theorem Returns.size_entered (returns : Returns host params g native r) :
    Table.size (native.entered g r).clients.clients + r.removed.toList.length ≤
      Table.size g.clients.clients := by
  have kept (same : Table.size r.globals.clients.clients = Table.size g.clients.clients)
      (stay : r.removed = none) :
      Table.size (native.entered g r).clients.clients + r.removed.toList.length ≤
        Table.size g.clients.clients := by
    rw [stay]
    rcases Threads.entered_cases native g r with globals | globals <;> rw [globals]
    · exact Nat.le_refl _
    · exact Nat.le_of_eq same
  cases returns with
  | created made => exact Nat.le_refl _
  | @destroyed handle arg => exact Nat.le_of_eq (Table.size_erase_add g.clients.clients handle)
  | @stored native type handle name client id kind arg nameArg live =>
      refine kept (Table.size_insert_of_mem (AList.lookup_isSome.mp ?_)) rfl
      rw [show g.clients.clients.lookup handle = some client from live]
      rfl
  | _ => exact kept rfl rfl

end Native

theorem GameCall.body_cost (call : GameCall) :
    weight ThreadOp.cost (call.body.map GameOp.statement) ≤ call.credit := by
  cases call <;>
    simp [GameCall.body, GameOp.statement, ThreadOp.cost, ThreadOp.work, GameCall.credit]
  omega

theorem PahoCallback.statements_cost {object : ObjectId} {callback : PahoCallback} :
    weight ThreadOp.cost (callback.statements object) ≤ 12 := by
  unfold PahoCallback.statements
  cases callback.stored <;> simp [ThreadOp.cost, ThreadOp.work]

namespace Threads

variable {n : Nat} {s s' : Threads P n} {t : Thread n} {action : ThreadAction n}

/-- How many steps the calls in progress can still take. -/
def potential (s : Threads P n) : Nat := total ThreadOp.cost s.stack + s.shared.reserve

theorem pays : Pays step ThreadAction.internal (potential : Threads P n → Nat)
    ThreadAction.credit where
  internal_lt {s action s'} within taken := by
    cases steps taken with
    | @lock t mutex rest top | @unlock t mutex rest top | @ret t rest top =>
        have update := total_update ThreadOp.cost s.stack t rest
        rw [top, weight_cons] at update
        simp only [potential, ThreadOp.cost, ThreadOp.work] at update ⊢
        omega
    | @pahoRet t object operation shared rest top destroyed left =>
        have update := total_update ThreadOp.cost s.stack t rest
        rw [top, weight_cons] at update
        have same : shared.reserve = s.shared.reserve := by
          rcases left with rfl | rfl <;> rfl
        simp only [potential, same, ThreadOp.cost, ThreadOp.work] at update ⊢
        omega
    | @exec t op shared statements rest top executed =>
        have update := total_update ThreadOp.cost s.stack t (statements ++ rest)
        have less := ThreadOp.exec_cost executed
        rw [top, weight_cons, weight_append] at update
        simp only [potential]
        omega
    | native | entered | callback | dispatch => cases within
  entry_le {s action s'} without taken := by
    cases steps taken with
    | lock | unlock | ret | pahoRet | exec => cases without
    | @native native host args r callable invoked fresh =>
        have update := total_update ThreadOp.cost s.stack .game
          (native.statements host (frame args) r ++ s.stack .game)
        have most : weight ThreadOp.cost (native.statements host (frame args) r) ≤
            max 6 ((r.effects.map Effect.credit).sum + 5 * r.removed.toList.length) :=
          Native.statements_cost
        have effects := (Native.returns invoked).effects_credit
        have fewer := (Native.returns invoked).size_entered
        rw [weight_append] at update
        simp only [potential, enterNative, push, Shared.reserve, Shared.unlist,
          ThreadAction.credit, GameCall.credit]
        omega
    | @entered call callable =>
        have update := total_update ThreadOp.cost s.stack .game
          (call.body.map GameOp.statement ++ s.stack .game)
        have most := call.body_cost
        rw [weight_append] at update
        simp only [potential, push, ThreadAction.credit]
        omega
    | @callback t object callback receptive known =>
        have update := total_update ThreadOp.cost s.stack t
          (callback.statements object ++ s.stack t)
        have most : weight ThreadOp.cost (callback.statements object) ≤ 12 :=
          PahoCallback.statements_cost
        rw [weight_append] at update
        simp only [potential, push, ThreadAction.credit]
        omega
    | @dispatch t call away =>
        have update := total_update ThreadOp.cost s.stack t
          ([.enqueueCallback call.event] ++ s.stack t)
        rw [weight_append, weight_cons, weight_nil] at update
        simp only [potential, push, ThreadAction.credit, ThreadOp.cost, ThreadOp.work] at update ⊢
        omega

/-! ## Nothing waits forever -/

/-- Every call has returned, and no mutex is locked. -/
structure AtRest (s : Threads P n) : Prop where
  returned : ∀ t, s.stack t = []
  unlocked : ∀ mutex, s.holder mutex = none

/-- While a thread is inside the module, or a worker inside a Paho callback, some thread can run. -/
theorem Sound.runs (sound : s.Sound) {op : ThreadOp} {rest : List ThreadOp}
    (top : s.stack t = op :: rest) (inside : op.executes = true ∨ op.producing = true) :
    ∃ u s', s.step (.run u) = some s' := by
  by_cases enabled : ∀ mutex, op.role = .request mutex → s.holder mutex = none
  · rcases inside with executes | producing
    · obtain ⟨after, executed⟩ := Option.isSome_iff_exists.mp
        ((ThreadOp.exec_isSome s.shared op).trans executes)
      exact ⟨t, _, run_exec top executed⟩
    · obtain ⟨s', taken⟩ := run_isSome top (.inr producing) enabled
      exact ⟨t, s', taken⟩
  · obtain ⟨mutex, locked⟩ := not_forall.mp enabled
    obtain ⟨_, taken⟩ := Classical.not_imp.mp locked
    obtain ⟨holder, holds⟩ := Option.ne_none_iff_exists'.mp taken
    obtain ⟨s', taken, _⟩ := proceeds sound.locks (sound.locks.owner.mp holds)
    exact ⟨holder, s', taken⟩

/-- A destruction that waits for a callback waits for a worker that can run, or that waits for a
mutex whose holder can. -/
theorem Sound.returns (sound : s.Sound) {object : ObjectId} {operation : PahoOp}
    {rest : List ThreadOp} (top : s.stack t = .paho object operation :: rest) :
    ∃ action s', ThreadAction.internal action = true ∧ s.step action = some s' := by
  by_cases waits : operation = .destroy ∧ ¬ s.quiet object
  · obtain ⟨i, inside⟩ := not_forall_not.mp waits.2
    obtain ⟨first, others, busy⟩ := List.exists_cons_of_ne_nil (List.ne_nil_of_mem inside)
    obtain ⟨u, s', taken⟩ := sound.runs busy (.inr (sound.workers_cons busy).1)
    exact ⟨.run u, s', rfl, taken⟩
  · refine ⟨.ret t, ?_⟩
    simp only [step, ret, top]
    split
    · rename_i destroys
      rw [if_pos (not_not.mp fun waiting => waits ⟨destroys, waiting⟩)]
      exact ⟨_, rfl, rfl⟩
    · exact ⟨_, rfl, rfl⟩

theorem Sound.progress (sound : s.Sound) (busy : ¬ s.AtRest) :
    ∃ action s', ThreadAction.internal action = true ∧ s.step action = some s' := by
  have unlocked (returned : ∀ t, s.stack t = []) : s.AtRest := by
    refine ⟨returned, fun mutex => Option.eq_none_iff_forall_ne_some.mpr fun t => ?_⟩
    apply sound.locks.holds_none
    show held ThreadOp.role (s.stack t) = none
    rw [returned t]
    rfl
  obtain ⟨t, unreturned⟩ := not_forall.mp (mt unlocked busy)
  obtain ⟨op, rest, top⟩ := List.exists_cons_of_ne_nil unreturned
  have runs (inside : op.executes = true ∨ op.producing = true) :
      ∃ action s', ThreadAction.internal action = true ∧ s.step action = some s' := by
    obtain ⟨u, s', taken⟩ := sound.runs top inside
    exact ⟨.run u, s', rfl, taken⟩
  cases op with
  | foreign =>
      refine ⟨.ret t, { s with stack := Function.update s.stack t rest }, rfl, ?_⟩
      simp only [step, ret, top]
  | paho object operation => exact sound.returns top
  | lock | unlock => exact runs (.inr rfl)
  | _ => exact runs (.inl rfl)

/-- What a run that has led to `s` leaves to be done, and that it gets done. -/
structure ComesToRest (actions : List (ThreadAction n)) (s : Threads P n) : Prop where
  /-- the steps taken so far, and those the calls in progress can still take, are no more than
  the entries brought -/
  bounded : actions.countP ThreadAction.internal + s.potential ≤
    (actions.map ThreadAction.credit).sum
  /-- without new entries, whoever takes the next step, there is an end to them -/
  ends : ∀ {more u}, Transition.run step s more = some u →
    (∀ action ∈ more, action.internal = true) → more.length + u.potential ≤ s.potential
  /-- and then every call has returned -/
  returned : ∀ {more u}, Transition.run step s more = some u →
    (∀ action ∈ more, action.internal = true) →
    (∀ action, action.internal = true → u.step action = none) → u.AtRest
  rests : ∃ more u, (∀ action ∈ more, action.internal = true) ∧
    Transition.run step s more = some u ∧ u.AtRest

end Threads

/-- **Every call returns.**  In any interleaving of the game thread and the workers, the module
takes no more steps than the calls into it and the callbacks have brought, and unless new ones come
it gets to a state in which none is in progress, whatever the order of the steps, provided that
Pawn, AMXX and Paho return. -/
theorem calls_return {n : Nat} {actions : List (ThreadAction n)} {s : Threads P n}
    (ran : Transition.run Threads.step .initial actions = some s) :
    s.ComesToRest actions where
  bounded := by
    have most := Threads.pays.run_le ran
    have nothing : (Threads.initial : Threads P n).potential = 0 := by
      simp [Threads.potential, Threads.initial, total, Shared.reserve, Shared.initial,
        Globals.initial, MqttClientMgr.initial]
    omega
  ends more within := Threads.pays.length_le more within
  returned {more u} later within stuck := by
    have sound : u.Sound := Threads.run_sound (Transition.run_append.mpr ⟨s, ran, later⟩)
    refine not_not.mp fun busy => ?_
    obtain ⟨action, v, internal, taken⟩ := sound.progress busy
    cases (stuck action internal).symm.trans taken
  rests := Threads.pays.settles (fun _ taken sound => Threads.step_sound taken sound)
    Threads.Sound.progress (Threads.run_sound ran)

/-- `MQTTAsync_destroy` waits for the callback, and both return. -/
theorem calls_return_waiting : ∃ s : Threads .plain 1,
    Transition.run Threads.step .initial destroyedInUse = some s ∧
      (s.step (.ret .game)).isNone = true ∧ destroyedInUse.countP ThreadAction.internal +
        s.potential ≤ 56 ∧
      ∃ more u, (∀ action ∈ more, ThreadAction.internal action = true) ∧
        Transition.run Threads.step s more = some u ∧ u.AtRest := by
  have state : (Transition.run Threads.step (.initial : Threads .plain 1) destroyedInUse).map
      (fun s => (s.step (.ret .game)).isNone) = some true := by decide +kernel
  obtain ⟨s, ran, waits⟩ := Option.map_eq_some_iff.mp state
  have returns := calls_return ran
  exact ⟨s, ran, waits, returns.bounded, returns.rests⟩

end AmxxMqtt
