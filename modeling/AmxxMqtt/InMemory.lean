import AmxxMqtt.Lib.Refinement
import AmxxMqtt.OptionsRefinement
import AmxxMqtt.OptionsHistory

/-!
# The module with its connect options in memory

`InMemory` is the module and, beside it, the memory its options manager has: a step of the module
that uses the options is a step of both.  A use the memory cannot serve, because it goes through a
bad pointer or frees what is not allocated, would stop the module there; none ever does.
-/

namespace AmxxMqtt

open Refinement

variable {P : PahoOptions} {host : Host} {params : List Cell} {g : Globals P}
  {r : NativeReturn P}

/-! ## What a step does with the options -/

/-- What a step does with the options manager. -/
def World.optionsUse (w : World P) : Action → Option OptionsUse
  | .call (.native native host args) => native.optionsUse host (frame args) w.globals
  | .tick =>
      match w.stack with
      | .resetOptions :: _ => some .reset
      | _ => none
  | _ => none

theorem World.creates_of_builds {w : World P} {action : Action} (built : action.builds)
    {failure : Option (OptionsStage × Thrown)}
    (creates : w.optionsUse action = some (.create failure)) : failure = none := by
  unfold World.optionsUse at creates
  split at creates
  · rename_i native host args
    cases native with
    | mqttCreateConnectOptions =>
        cases creates
        exact built
    | mqttConnect | mqttSetOptions =>
        obtain ⟨index, _, same⟩ := Option.map_eq_some_iff.mp creates
        cases same
    | _ => cases creates
  · split at creates <;> cases creates
  · cases creates

/-- The options manager after that. -/
def ConnectOptionMgr.after (mgr : ConnectOptionMgr P) (use : Option OptionsUse) :
    ConnectOptionMgr P :=
  use.elim mgr fun use => (mgr.serve use).2

theorem mqttCreateConnectOptions_uses (returned : mqttCreateConnectOptions host params g = .ok r) :
    r.globals.options =
      g.options.after (Native.mqttCreateConnectOptions.optionsUse host params g) := by
  show _ = g.options.after (some (.create host.optionsFailure))
  simp only [ConnectOptionMgr.after, Option.elim_some, ConnectOptionMgr.serve]
  unfold mqttCreateConnectOptions at returned
  generalize g.options.make host.optionsFailure = result at returned
  rcases result with ⟨made | made, mgr⟩
  · cases made with
    | mqtt exception =>
        cases returned
        rfl
    | other => cases returned
  · cases returned
    rfl

theorem mqttConnect_uses (returned : mqttConnect host params g = .ok r) :
    r.globals.options = g.options.after (Native.mqttConnect.optionsUse host params g) := by
  unfold mqttConnect at returned
  simp only [Native.optionsUse, Native.optionsLookup]
  split at returned
  · rename_i few
    cases returned
    rw [if_neg (by omega)]
    rfl
  · rename_i count
    obtain ⟨optionsHandle, optionsArg, returned⟩ := readArg_eq_ok.mp returned
    obtain ⟨handle, arg, returned⟩ := readArg_eq_ok.mp returned
    rw [if_pos (by omega), arg, optionsArg]
    cases live : g.clients.getClient handle with
    | none =>
        simp only [live] at returned
        cases returned
        simp only [live, Option.bind_some, Option.bind_none, Option.map_none]
        rfl
    | some client =>
        simp only [live] at returned
        simp only [live, Option.bind_some, Option.map_some, ConnectOptionMgr.after,
          Option.elim_some, ConnectOptionMgr.serve]
        generalize g.options.getOptions optionsHandle = looked at returned
        rcases looked with ⟨found | found, mgr⟩
        · cases returned
          rfl
        · simp only [submit] at returned
          split at returned
          · cases returned
            rfl
          · cases returned
            rfl
          · cases returned

theorem mqttSetOptions_uses (returned : mqttSetOptions host params g = .ok r) :
    r.globals.options = g.options.after (Native.mqttSetOptions.optionsUse host params g) := by
  unfold mqttSetOptions at returned
  simp only [Native.optionsUse, Native.optionsLookup]
  split at returned
  · rename_i few
    cases returned
    rw [if_neg (by omega)]
    rfl
  · rename_i count
    obtain ⟨optionsHandle, arg, returned⟩ := readArg_eq_ok.mp returned
    rw [if_pos (by omega), arg]
    simp only [Option.map_some, ConnectOptionMgr.after, Option.elim_some, ConnectOptionMgr.serve]
    generalize g.options.getOptions optionsHandle = looked at returned
    rcases looked with ⟨found | found, mgr⟩
    · cases returned
      rfl
    · obtain ⟨nameArg, nameAt, returned⟩ := readArg_eq_ok.mp returned
      simp only [List.getD_eq_getElem?_getD, nameAt, Option.getD_some]
      cases named : optionName nameArg with
      | none =>
          simp only [named] at returned
          cases returned
          rfl
      | some name =>
          simp only [named] at returned
          obtain ⟨value, valueAt, returned⟩ := readArg_eq_ok.mp returned
          cases returned
          simp only [valueAt, Option.getD_some]

/-- A connect passes the object its second argument stands for. -/
theorem connect_sent {object : ObjectId} {options : P.Options}
    (returned : Native.mqttConnect.invoke host params g = .ok r)
    (sent : .request object (.connect options) ∈ r.effects) : ∃ index option,
      params[2]? = some index ∧ g.options.object index = some option ∧
        option.option = options := by
  cases Native.returns returned with
  | rejected | connectUnknown =>
      simp only [rejection, List.mem_singleton, reduceCtorEq] at sent
  | connected arg optionsArg live found accepted =>
      simp only [List.mem_singleton, Effect.request.injEq, PahoRequest.connect.injEq] at sent
      exact ⟨_, _, optionsArg, found, sent.2.symm⟩
  | connectThrew arg optionsArg live found threw =>
      simp only [List.mem_cons, Effect.request.injEq, PahoRequest.connect.injEq, reduceCtorEq,
        List.not_mem_nil, or_false] at sent
      exact ⟨_, _, optionsArg, found, sent.2.symm⟩
  | requested kind | requestThrew kind | stored kind => cases kind

theorem Native.uses {native : Native} (returned : native.invoke host params g = .ok r) :
    r.globals.options = g.options.after (native.optionsUse host params g) := by
  cases native with
  | mqttCreateConnectOptions => exact mqttCreateConnectOptions_uses returned
  | mqttConnect => exact mqttConnect_uses returned
  | mqttSetOptions => exact mqttSetOptions_uses returned
  | _ =>
      have returns := Native.returns returned
      cases returns <;> rfl

/-- A step of the module changes the options by its use of them, and by nothing else. -/
theorem World.step_options {w t : World P} {action : Action} (stepped : w.step action = some t) :
    t.globals.options = w.globals.options.after (w.optionsUse action) := by
  cases World.steps stepped with
  | native outside invoked admitted => exact (w.returned_globals ..) ▸ Native.uses invoked
  | @entered call outside plain =>
      cases call with
      | native native host args => exact absurd rfl (plain native host args)
      | _ => rfl
  | callback made => exact w.receive_options
  | ret | dispatch => rfl
  | start top | stop top | resetClients top | destruct top | resetOptions top | hook top
  | unhook top | process top | drained top | take top | execute top | discard top =>
      simp only [World.optionsUse, top]
      rfl

/-! ## The module and its memory -/

structure InMemory (P : PahoOptions) where
  world : World P
  memory : OptionsMemory P

namespace InMemory

def initial : InMemory P := ⟨.initial, .initial⟩

/-- The allocator answers a step with these addresses. -/
def step (s : InMemory P) (move : Action × Allocation) : Option (InMemory P) :=
  match s.world.step move.1, s.world.optionsUse move.1 with
  | none, _ => none
  | some world, none => some { s with world }
  | some world, some use =>
      if s.memory.Fresh move.2 then
        (s.memory.serve move.2 use).map fun served => ⟨world, served.2⟩
      else none

/-- The objects a step leaves allocated that nothing points to. -/
def leaks (s : InMemory P) (move : Action × Allocation) : List Address :=
  (s.world.optionsUse move.1).elim [] (s.memory.leaks move.2)

variable {s t : InMemory P} {move : Action × Allocation} {lost : List Address}

theorem leaks_of_builds (s : InMemory P) (built : move.1.builds) : s.leaks move = [] := by
  rcases move with ⟨action, place⟩
  have plain : ∀ use, s.world.optionsUse action = some use → s.memory.leaks place use = [] := by
    intro use used
    cases use with
    | connect | set | reset => rfl
    | create failure =>
        have whole := World.creates_of_builds built used
        rw [whole]
        rfl
  unfold leaks
  cases used : s.world.optionsUse action with
  | none => rfl
  | some use => exact plain use used

/-- A step of the module with a fresh allocation is a step of both. -/
theorem step_holds {world : World P} {action : Action} {place : Allocation}
    (stepped : s.world.step action = some world) (fresh : s.memory.Fresh place)
    (holds : s.memory.Holds s.world.globals.options lost) : ∃ memory,
    s.step (action, place) = some ⟨world, memory⟩ ∧
      memory.Holds world.globals.options (s.leaks (action, place) ++ lost) := by
  have options := World.step_options stepped
  rw [options]
  simp only [step, stepped, leaks]
  cases s.world.optionsUse action with
  | none => exact ⟨s.memory, rfl, holds⟩
  | some use =>
      obtain ⟨memory, served, after⟩ := holds.serve fresh use
      refine ⟨memory, ?_, after⟩
      simp only [if_pos fresh, served, Option.map_some]

theorem step_kept (stepped : s.step move = some t)
    (holds : s.memory.Holds s.world.globals.options lost) :
    t.memory.Holds t.world.globals.options (s.leaks move ++ lost) := by
  rcases move with ⟨action, place⟩
  have taken := stepped
  simp only [step] at taken
  split at taken
  · cases taken
  · rename_i world unused moved use
    cases taken
    have options := World.step_options moved
    simp only [leaks, use, ConnectOptionMgr.after, Option.elim_none] at options ⊢
    rw [options]
    exact holds
  · rename_i world use moved used
    split at taken
    · rename_i fresh
      obtain ⟨memory, both, after⟩ := step_holds moved fresh holds
      cases both.symm.trans stepped
      exact after
    · cases taken

/-- **The memory holds the module's options in every state**, and beyond them the objects whose
construction failed. -/
theorem run_holds {moves : List (Action × Allocation)}
    (ran : Transition.run step initial moves = some s) :
    s.memory.Holds s.world.globals.options
      (observed step leaks (initial : InMemory P) moves) := by
  let fact := fun (moves : List (Action × Allocation)) (t : InMemory P) =>
    Transition.run step initial moves = some t ∧
      t.memory.Holds t.world.globals.options (observed step leaks (initial : InMemory P) moves)
  have kept : ∀ {moves : List (Action × Allocation)} {move t u}, fact moves t →
      t.step move = some u → fact (moves ++ [move]) u := by
    intro moves move t u before taken
    rcases before with ⟨ran, holds⟩
    refine ⟨Transition.run_concat.mpr ⟨t, ran, taken⟩, ?_⟩
    rw [observed_append ran, observed_singleton taken]
    have after := step_kept taken holds
    exact { after with accounted := after.accounted.perm (List.perm_append_comm.append_left _) }
  have last : fact moves s := Transition.run_induction ⟨rfl, OptionsMemory.holds_initial⟩ kept ran
  exact last.2

/-- **Options pointers are used well.**  In every state of every run, whatever addresses the
allocator returns: no use of the options goes through a bad pointer or frees twice, so every step
of the module can be taken; the options a connect passes to Paho are those its pointer leads to;
and the destructor of the manager frees everything there is but the parts of objects whose
construction failed, hence everything if none did. -/
theorem options_memory_safe {moves : List (Action × Allocation)} {s : InMemory P}
    (ran : Transition.run step initial moves = some s) :
    (∀ action place, s.memory.Fresh place → (s.world.step action).isSome →
      (s.step (action, place)).isSome) ∧
    (∀ host args r object options,
      Native.mqttConnect.invoke host (frame args) s.world.globals = .ok r →
      .request object (.connect options) ∈ r.effects → ∃ index address,
        args[1]? = some index ∧ s.memory.options.lookup index = some address ∧
          s.memory.heap.readOption address = some options) ∧
    (∃ heap, s.memory.deleteAll = some heap ∧
      heap.keys.Perm (observed step leaks (initial : InMemory P) moves)) ∧
    ((∀ move ∈ moves, move.1.builds) → s.memory.deleteAll = some ∅) := by
  have holds := run_holds ran
  obtain ⟨heap, deleted, left⟩ := holds.deleteAll
  refine ⟨fun action place fresh taken => ?_, fun host args r object options invoked sent => ?_,
    ⟨heap, deleted, left⟩, fun built => ?_⟩
  · obtain ⟨world, stepped⟩ := Option.isSome_iff_exists.mp taken
    obtain ⟨memory, both, _⟩ := step_holds stepped fresh holds
    exact Option.isSome_of_eq_some both
  · obtain ⟨index, option, arg, found, same⟩ := connect_sent invoked sent
    obtain ⟨address, stored, points⟩ := holds.pointer found
    exact ⟨index, address, arg, stored, same ▸ OptionsHeap.readOption_of_points points⟩
  · rw [deleted]
    have nothing : observed step leaks (initial : InMemory P) moves = [] :=
      observed_eq_nil (fun s _ built => s.leaks_of_builds built) built
    rw [nothing] at left
    exact congrArg some (AList.ext (List.map_eq_nil_iff.mp left.eq_nil))

/-- An object is passed to Paho and freed, and its memory is allocated again. -/
theorem options_memory_safe_reused : ∃ s : InMemory .plain,
    Transition.run step initial
        [(.call (.native .mqttCreate .plain [0, 0]), ⟨1, 2, 3⟩),
          (.call (.native .mqttCreateConnectOptions .plain []), ⟨1, 2, 3⟩),
          (.call (.native .mqttConnect .plain [1, 1]), ⟨4, 5, 6⟩),
          (.call (.native .mqttCreateConnectOptions .plain []), ⟨3, 1, 2⟩)] = some s ∧
      s.memory.options.lookup 1 = some 3 ∧ s.memory.heap.keys = [3, 2, 1] ∧
      s.memory.deleteAll = some ∅ := by
  have state : (Transition.run step (initial : InMemory .plain)
      [(.call (.native .mqttCreate .plain [0, 0]), ⟨1, 2, 3⟩),
        (.call (.native .mqttCreateConnectOptions .plain []), ⟨1, 2, 3⟩),
        (.call (.native .mqttConnect .plain [1, 1]), ⟨4, 5, 6⟩),
        (.call (.native .mqttCreateConnectOptions .plain []), ⟨3, 1, 2⟩)]).map
          (fun s => (s.memory.options.lookup 1, s.memory.heap.keys)) =
            some (some 3, [3, 2, 1]) := by
    decide +kernel
  obtain ⟨s, ran, same⟩ := Option.map_eq_some_iff.mp state
  have safe := options_memory_safe ran
  exact ⟨s, ran, congrArg Prod.fst same, congrArg Prod.snd same,
    safe.2.2.2 (by simp [Action.builds, Host.plain])⟩

end InMemory

end AmxxMqtt
