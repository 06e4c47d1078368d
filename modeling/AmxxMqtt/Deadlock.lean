import AmxxMqtt.Threads
import AmxxMqtt.Lib.Locks

/-!
# No mutex of the module can deadlock

Every statement has a role: it locks or unlocks a mutex, works under one, or works under none.
`ThreadOp.exec_role` checks statement by statement that what a statement leads to fits its role,
so that no mutex is held when control leaves the module, or when another is requested.  From this
`Locks` gives the rest: in every reachable state a thread that waits for a mutex waits for a
thread that will release it alone.

Workers run the statements of producers only, each of which leads to less work; while the game
thread is away they finish by themselves.
-/

namespace AmxxMqtt

open Locks

/-! ## Roles -/

def ThreadOp.role : ThreadOp → Role Mutex
  | .lock mutex => .request mutex
  | .unlock mutex => .release mutex
  | .pushBack _ | .setAccepting | .clearPending => .inside .callbackMutex
  | .readSize | .takeFront _ => .last .callbackMutex
  | .storeHandler object _ _ | .setStopping object => .inside (.handlerMutex object)
  | .copyHandler object _ _ => .last (.handlerMutex object)
  | .makeIndex _ => .last .optionsMutex
  | _ => .outside

/-- Statements without a guard. -/
theorem scoped_of_outside {statements : List ThreadOp}
    (plain : ∀ op ∈ statements, op.role = .outside) :
    Scoped ThreadOp.role none statements := by
  induction statements with
  | nil => rfl
  | cons op rest ih =>
      have first := plain op List.mem_cons_self
      refine ⟨by rw [first]; rfl, ?_⟩
      rw [first]
      exact ih fun other member => plain other (List.mem_cons_of_mem op member)

/-- One guarded statement. -/
theorem scoped_guarded {mutex : Mutex} {statement : ThreadOp}
    (works : statement.role = .inside mutex) :
    Scoped ThreadOp.role none (ThreadOp.guarded mutex statement) := by
  refine ⟨rfl, ?_, ?_⟩
  · rw [works]
    rfl
  · rw [works]
    exact ⟨rfl, rfl⟩

/-- What a statement of each role leads to. -/
def Fits (statements : List ThreadOp) : Role Mutex → Prop
  | .request _ | .release _ => False
  | .inside _ => statements = []
  | .last mutex => ∃ more, statements = .unlock mutex :: more ∧ Scoped ThreadOp.role none more
  | .outside => Scoped ThreadOp.role none statements

/-- **Every lock scope ends before control leaves the module.** -/
theorem ThreadOp.exec_role {P : PahoOptions} {s s' : Shared P} {op : ThreadOp}
    {statements : List ThreadOp} (executed : op.exec s = some (s', statements)) :
    Fits statements op.role := by
  cases op with
  | foreign | paho | lock | unlock => cases executed
  | enqueueCallback | startCallbackDispatcher | stopCallbackDispatcher | setHandler =>
      cases executed
      exact scoped_guarded rfl
  | pushBack | setAccepting | clearPending | storeHandler | setStopping =>
      cases executed
      rfl
  | processPendingCallbacks | callHandler | makeOptions =>
      cases executed
      exact ⟨rfl, rfl, rfl⟩
  | readSize =>
      cases executed
      exact ⟨_, rfl, rfl, rfl⟩
  | drain remaining =>
      cases remaining with
      | zero =>
          cases executed
          rfl
      | succ remaining =>
          cases executed
          exact ⟨rfl, rfl, rfl⟩
  | takeFront remaining =>
      simp only [exec] at executed
      split at executed
      · cases executed
        exact ⟨[], rfl, rfl⟩
      · cases executed
        exact ⟨_, rfl, rfl, rfl, rfl⟩
  | executeCallback event =>
      simp only [exec] at executed
      split at executed
      · cases executed
        exact ⟨rfl, rfl⟩
      · cases executed
        rfl
  | copyHandler object type notification =>
      simp only [exec] at executed
      split at executed
      · cases executed
        exact ⟨_, rfl, rfl, rfl⟩
      · cases executed
        exact ⟨[], rfl, rfl⟩
  | invoke =>
      cases executed
      exact ⟨rfl, rfl, rfl⟩
  | storeConnected | handlerReturn | callbackReturn | destroyOptions | resetOptions
  | registerRehldsFrameHook | unregisterRehldsFrameHook =>
      cases executed
      rfl
  | emplace handle object =>
      simp only [exec] at executed
      split at executed <;> cases executed <;> rfl
  | destroyClient object =>
      cases executed
      exact (scoped_guarded rfl).append ⟨rfl, rfl⟩
  | resetClients =>
      cases executed
      refine scoped_of_outside fun op member => ?_
      obtain ⟨client, _, rfl⟩ := List.mem_map.mp member
      rfl
  | makeIndex failure =>
      simp only [exec] at executed
      split at executed <;> cases executed <;> exact ⟨_, rfl, rfl, rfl⟩
  | buildOptions index failure =>
      simp only [exec] at executed
      split at executed
      · split at executed
        · cases executed
          exact ⟨rfl, rfl⟩
        · cases executed
          rfl
      · cases executed
        rfl

/-! ## Entry points -/

section Entries

variable {P : PahoOptions}

theorem GameOp.role_statement (op : GameOp) : op.statement.role = .outside := by
  cases op <;> rfl

theorem PahoCallback.role_statements {object : ObjectId} {callback : PahoCallback} :
    ∀ op ∈ callback.statements object, op.role = .outside := by
  intro op member
  rcases List.mem_append.mp member with stores | rest
  · obtain ⟨value, _, rfl⟩ := List.mem_map.mp stores
    rfl
  · rcases List.mem_cons.mp rest with rfl | last
    · rfl
    · cases List.mem_singleton.mp last
      rfl

theorem Native.role_afterRequest {native : Native} {host : Host} {params : List Cell}
    {object : ObjectId} : ∀ op ∈ native.afterRequest host params object, op.role = .outside := by
  intro op member
  unfold Native.afterRequest at member
  split at member
  · cases List.mem_singleton.mp member
    rfl
  · split at member
    · cases List.mem_singleton.mp member
      rfl
    · cases member
  · cases member

theorem Effect.role_statements {native : Native} {host : Host} {params : List Cell} {value : Cell}
    {effect : Effect P} :
    ∀ op ∈ effect.statements native host params value, op.role = .outside := by
  intro op member
  cases effect with
  | constructed object =>
      simp only [statements, List.mem_cons, List.not_mem_nil, or_false] at member
      rcases member with rfl | rfl | rfl | rfl | rfl <;> rfl
  | request object asked =>
      rcases List.mem_cons.mp member with rfl | follows
      · rfl
      · exact Native.role_afterRequest op follows
  | logError error =>
      cases List.mem_singleton.mp member
      rfl
  | registered | unregistered | dispatched => cases member

theorem Native.role_statements {native : Native} {host : Host} {params : List Cell}
    {r : NativeReturn P} : ∀ op ∈ native.statements host params r, op.role = .outside := by
  intro op member
  unfold Native.statements at member
  split at member
  · cases List.mem_singleton.mp member
    rfl
  · rcases List.mem_append.mp member with effects | destroys
    · obtain ⟨effect, _, among⟩ := List.mem_flatMap.mp effects
      exact Effect.role_statements op among
    · obtain ⟨client, _, rfl⟩ := List.mem_map.mp destroys
      rfl

end Entries

namespace Threads

variable {P : PahoOptions} {n : Nat} {s s' : Threads P n} {t : Thread n}

/-- The mutexes and the stacks. -/
def view (s : Threads P n) : View (Thread n) Mutex ThreadOp := ⟨s.holder, s.stack⟩

/-- Outside the module, and between its calls, no mutex is held. -/
theorem held_of_away (away : s.away t = true) : held ThreadOp.role (s.stack t) = none := by
  unfold Threads.away at away
  split at away
  · rename_i empty
    rw [empty]
    rfl
  · rename_i rest top
    rw [top]
    rfl
  · rename_i object operation rest top
    rw [top]
    rfl
  · cases away

theorem away_of_callable (callable : s.callable = true) : s.away .game = true := by
  unfold Threads.callable at callable
  unfold away
  split at callable
  · rename_i empty
    rw [empty]
  · rename_i rest top
    rw [top]
  · cases callable

theorem away_of_receptive (receptive : s.receptive t = true) : s.away t = true := by
  unfold Threads.receptive at receptive
  unfold away
  split at receptive
  · rename_i empty
    rw [empty]
  · rename_i top
    rw [top]
  · cases receptive

/-- A call from outside the module. -/
theorem move_push {shared : Shared P} {statements : List ThreadOp} (away : s.away t = true)
    (plain : ∀ op ∈ statements, op.role = .outside) :
    Move ThreadOp.role t s.view (Threads.push t statements { s with shared }).view :=
  .call (held_of_away away) (scoped_of_outside plain)

/-- **Every step of a thread is a move.** -/
theorem step_move {action : ThreadAction n} (taken : s.step action = some s') :
    Move ThreadOp.role action.thread s.view s'.view := by
  cases steps taken with
  | lock top free => exact .request top rfl free
  | unlock top => exact .release top rfl
  | @exec t op shared statements rest top executed =>
      have fits := ThreadOp.exec_role executed
      cases is : op.role with
      | request | release =>
          rw [is] at fits
          exact fits.elim
      | inside mutex =>
          rw [is] at fits
          cases fits
          exact .inside top is
      | last mutex =>
          rw [is] at fits
          rcases fits with ⟨more, rfl, nested⟩
          exact .last top is rfl nested
      | outside =>
          rw [is] at fits
          exact .outside top is fits
  | ret top | pahoRet top destroyed left => exact .pop top rfl
  | native callable invoked fresh =>
      exact move_push (away_of_callable callable) Native.role_statements
  | entered callable =>
      apply move_push (away_of_callable callable)
      intro op member
      obtain ⟨statement, _, rfl⟩ := List.mem_map.mp member
      exact statement.role_statement
  | callback receptive known =>
      exact move_push (away_of_receptive receptive) PahoCallback.role_statements
  | dispatch away =>
      apply move_push away
      intro op member
      cases List.mem_singleton.mp member
      rfl

end Threads

/-- Pawn code, a user handler or an operation of a Paho object is running. -/
def ThreadOp.leavesModule : ThreadOp → Bool
  | .foreign | .paho _ _ | .invoke _ _ | .handlerReturn => true
  | _ => false

theorem ThreadOp.role_of_leavesModule {op : ThreadOp} (leaves : op.leavesModule = true) :
    op.role = .outside := by
  cases op <;> first | rfl | cases leaves

/-! ## Producers -/

/-- The statements of Paho's callbacks and of the producer entry points. -/
def ThreadOp.producing : ThreadOp → Bool
  | .lock _ | .unlock _ | .enqueueCallback _ | .pushBack _ | .storeConnected _ _
  | .callHandler _ _ _ | .copyHandler _ _ _ | .invoke _ _ | .handlerReturn
  | .callbackReturn _ => true
  | _ => false

/-- How many steps a producer's statement takes, with those it leads to. -/
def ThreadOp.work : ThreadOp → Nat
  | .enqueueCallback _ => 4
  | .invoke _ _ => 6
  | .copyHandler _ _ _ => 8
  | .callHandler _ _ _ => 10
  | _ => 1

/-- Control is neither outside the module nor at a mutex. -/
def ThreadOp.executes : ThreadOp → Bool
  | .foreign | .paho _ _ | .lock _ | .unlock _ => false
  | _ => true

theorem ThreadOp.exec_isSome {P : PahoOptions} (s : Shared P) (op : ThreadOp) :
    (op.exec s).isSome = op.executes := by
  cases op with
  | drain remaining => cases remaining <;> rfl
  | takeFront | executeCallback | copyHandler | emplace | makeIndex =>
      simp only [exec]
      split <;> rfl
  | buildOptions =>
      simp only [exec]
      split
      · split <;> rfl
      · rfl
  | _ => rfl

/-- A producer's statement leads to statements of producers, with less work in all. -/
theorem ThreadOp.exec_producing {P : PahoOptions} {s s' : Shared P} {op : ThreadOp}
    {statements : List ThreadOp} (producer : op.producing = true)
    (executed : op.exec s = some (s', statements)) :
    (∀ next ∈ statements, next.producing = true) ∧ (statements.map work).sum < op.work := by
  cases op with
  | enqueueCallback | pushBack | storeConnected | callHandler | invoke | handlerReturn
  | callbackReturn =>
      cases executed
      simp [producing, work, guarded]
  | copyHandler object type notification =>
      simp only [exec] at executed
      split at executed <;> cases executed <;> simp [producing, work]
  | lock | unlock => cases executed
  | _ => cases producer

theorem PahoCallback.producing_statements {object : ObjectId} {callback : PahoCallback} :
    ∀ op ∈ callback.statements object, op.producing = true := by
  intro op member
  rcases List.mem_append.mp member with stores | rest
  · obtain ⟨value, _, rfl⟩ := List.mem_map.mp stores
    rfl
  · rcases List.mem_cons.mp rest with rfl | last
    · rfl
    · cases List.mem_singleton.mp last
      rfl

namespace Threads

variable {P : PahoOptions} {n : Nat} {s s' : Threads P n} {t : Thread n}

/-- The locks are scoped, and workers run the statements of producers only. -/
structure Sound (s : Threads P n) : Prop where
  locks : Valid ThreadOp.role s.view
  workers : ∀ i, ∀ op ∈ s.stack (.worker i), op.producing = true

theorem sound_initial : Sound (initial : Threads P n) where
  locks := ⟨fun _ => rfl, by simp [view, initial]⟩
  workers _ _ member := absurd member List.not_mem_nil

/-- What a thread has to run is replaced by statements of producers. -/
theorem Sound.workers_update (sound : s.Sound) {statements : List ThreadOp}
    (producing : ∀ i, t = .worker i → ∀ op ∈ statements, op.producing = true) (i : Fin n) :
    ∀ op ∈ Function.update s.stack t statements (.worker i), op.producing = true := by
  by_cases this : Thread.worker i = t
  · subst this
    rw [Function.update_self]
    exact producing i rfl
  · rw [Function.update_of_ne this]
    exact sound.workers i

/-- The statements a worker has to run are a producer's, the top one and the others. -/
theorem Sound.workers_cons (sound : s.Sound) {op : ThreadOp} {rest : List ThreadOp} {i : Fin n}
    (top : s.stack (.worker i) = op :: rest) :
    op.producing = true ∧ ∀ other ∈ rest, other.producing = true := by
  have all := sound.workers i
  rw [top] at all
  exact List.forall_mem_cons.mp all

theorem Sound.workers_append (sound : s.Sound) {i : Fin n} {statements : List ThreadOp}
    (producing : ∀ op ∈ statements, op.producing = true) :
    ∀ op ∈ statements ++ s.stack (.worker i), op.producing = true :=
  List.forall_mem_append.mpr ⟨producing, sound.workers i⟩

theorem step_sound {action : ThreadAction n} (taken : s.step action = some s')
    (sound : s.Sound) : s'.Sound := by
  refine ⟨sound.locks.move (step_move taken), ?_⟩
  cases steps taken with
  | lock top free | unlock top | ret top | pahoRet top destroyed left =>
      apply sound.workers_update
      rintro i rfl
      exact (sound.workers_cons top).2
  | exec top executed =>
      apply sound.workers_update
      rintro i rfl
      obtain ⟨producer, below⟩ := sound.workers_cons top
      exact List.forall_mem_append.mpr ⟨(ThreadOp.exec_producing producer executed).1, below⟩
  | native callable invoked fresh =>
      rw [enterNative_stack]
      apply sound.workers_update
      rintro i ⟨⟩
  | entered callable =>
      rw [push_stack]
      apply sound.workers_update
      rintro i ⟨⟩
  | callback receptive known =>
      rw [push_stack]
      apply sound.workers_update
      rintro i rfl
      exact sound.workers_append PahoCallback.producing_statements
  | dispatch away =>
      rw [push_stack]
      apply sound.workers_update
      rintro i rfl
      exact sound.workers_append (by simp [ThreadOp.producing])

theorem run_sound {actions : List (ThreadAction n)}
    (ran : Transition.run step initial actions = some s) : s.Sound := by
  have kept : ∀ {s : Threads P n} {action s'}, True → s.step action = some s' → s.Sound →
      s'.Sound := fun _ taken sound => step_sound taken sound
  exact Transition.run_invariant kept ran (fun _ _ => trivial) sound_initial

/-! ## Progress -/

/-- The module's next statement can be run, unless it waits for a mutex. -/
theorem run_isSome {op : ThreadOp} {rest : List ThreadOp} (top : s.stack t = op :: rest)
    (inside : op.role ≠ .outside ∨ op.producing = true)
    (enabled : ∀ mutex, op.role = .request mutex → s.holder mutex = none) :
    ∃ s', s.step (.run t) = some s' := by
  by_cases executes : op.executes = true
  · rw [← ThreadOp.exec_isSome s.shared, Option.isSome_iff_exists] at executes
    rcases executes with ⟨⟨shared, statements⟩, executed⟩
    exact ⟨_, run_exec top executed⟩
  · cases op with
    | foreign | paho =>
        rcases inside with works | producer
        · exact absurd rfl works
        · cases producer
    | lock mutex => exact ⟨_, run_lock top (enabled mutex rfl)⟩
    | unlock mutex => exact ⟨_, run_unlock top⟩
    | _ => exact absurd rfl executes

/-- A thread that holds a mutex can run its next statement. -/
theorem proceeds :
    Proceeds ThreadOp.role step (view : Threads P n → _) ThreadAction.run := by
  intro s t mutex valid works
  replace works : held ThreadOp.role (s.stack t) = some mutex := works
  cases top : s.stack t with
  | nil =>
      rw [top] at works
      cases works
  | cons op rest =>
      rw [top, held_cons] at works
      have inside : op.role ≠ .outside := by
        intro is
        rw [is] at works
        cases works
      have enabled : ∀ asked, op.role = .request asked → s.holder asked = none := by
        intro asked is
        rw [is] at works
        cases works
      obtain ⟨s', taken⟩ := run_isSome top (.inl inside) enabled
      exact ⟨s', taken, step_move taken⟩

/-- A step of a worker leaves it less to do. -/
theorem work_lt (sound : s.Sound) {i : Fin n} (taken : s.step (.run (.worker i)) = some s') :
    ((s'.stack (.worker i)).map ThreadOp.work).sum <
      ((s.stack (.worker i)).map ThreadOp.work).sum := by
  cases steps taken with
  | lock top free | unlock top =>
      simp [top, ThreadOp.work]
  | exec top executed =>
      have less := (ThreadOp.exec_producing (sound.workers_cons top).1 executed).2
      simp [top]
      omega

/-- **While the game thread is away the workers need nobody else.** -/
theorem cooperates : Cooperates ThreadOp.role step (view : Threads P n → _) ThreadAction.run
    (fun t => t ≠ .game) (fun s => s.Sound ∧ s.away .game = true) ThreadOp.work where
  valid sound := sound.1.locks
  kept := by
    intro s t s' waiting worker taken
    rcases waiting with ⟨sound, away⟩
    refine ⟨step_sound taken sound, ?_⟩
    have same : s'.stack .game = s.stack .game := (step_move taken).stack_of_ne worker.symm
    simpa only [Threads.away, same] using away
  holders := by
    intro s mutex t waiting holds game
    rcases waiting with ⟨sound, away⟩
    subst game
    exact sound.locks.holds_none (held_of_away away) mutex holds
  advances := by
    intro s t op rest waiting worker top enabled
    rcases waiting with ⟨sound, away⟩
    cases t with
    | game => exact absurd rfl worker
    | worker i =>
        obtain ⟨s', taken⟩ := run_isSome top (.inr (sound.workers_cons top).1) enabled
        exact ⟨s', taken, step_move taken, work_lt sound taken⟩

/-! ## No deadlock -/

/-- The thread's next step is to lock the mutex. -/
def Requests (s : Threads P n) (t : Thread n) (mutex : Mutex) : Prop :=
  ∃ rest, s.stack t = .lock mutex :: rest

/-- What keeps the mutexes of the module from ever deadlocking. -/
structure DeadlockFree (s : Threads P n) : Prop where
  one_mutex : ∀ {t m m'}, s.holder m = some t → s.holder m' = some t → m = m'
  /-- a thread that requests a mutex holds none, so not that one -/
  requests_none : ∀ {t m m'}, s.Requests t m → s.holder m' ≠ some t
  outside_none : ∀ {t op rest m}, s.stack t = op :: rest → op.leavesModule = true →
    s.holder m ≠ some t
  /-- what a thread takes while called from there, it releases before it is back there -/
  reentry : ∀ {t above op rest m}, s.stack t = above ++ op :: rest → op.leavesModule = true →
    s.holder m = some t → ∃ count s',
      Transition.run step s (List.replicate count (.run t)) = some s' ∧
        s'.holder m = none ∧ op :: rest <:+ s'.stack t
  /-- the holder of a requested mutex releases it in steps of its own, and the request succeeds -/
  released : ∀ {t u m}, s.Requests t m → s.holder m = some u → ∃ count s' s'',
    Transition.run step s (List.replicate count (.run u)) = some s' ∧
      s'.step (.run t) = some s'' ∧ s''.holder m = some t
  /-- while the game thread is in Pawn or in Paho, workers finish what they do without it -/
  producers : s.away .game = true → ∀ i, ∃ actions s',
    (∀ action ∈ actions, ∃ j, action = .run (.worker j)) ∧
      Transition.run step s actions = some s' ∧ s'.stack (.worker i) = [] ∧
      s'.stack .game = s.stack .game

theorem Sound.requests_none (sound : s.Sound) {m m' : Mutex} (requests : s.Requests t m) :
    s.holder m' ≠ some t := by
  rcases requests with ⟨rest, top⟩
  apply sound.locks.holds_none
  show held ThreadOp.role (s.stack t) = none
  rw [top]
  rfl

theorem Sound.deadlockFree (sound : s.Sound) : s.DeadlockFree where
  one_mutex one other := sound.locks.one_mutex one other
  requests_none requests := sound.requests_none requests
  outside_none {t op rest m} top leaves := by
    apply sound.locks.holds_none
    show held ThreadOp.role (s.stack t) = none
    rw [top, held_cons, ThreadOp.role_of_leavesModule leaves]
    rfl
  reentry {t above op rest m} stack leaves holds := by
    obtain ⟨count, s', ran, free, _, keeps⟩ := sound.locks.releases proceeds holds
    refine ⟨count, s', ran, free, keeps (op :: rest) ?_ ⟨above, stack.symm⟩⟩
    rw [held_cons, ThreadOp.role_of_leavesModule leaves]
    rfl
  released {t u m} requests holds := by
    have other : t ≠ u := by
      intro same
      subst same
      exact sound.requests_none requests holds
    obtain ⟨count, s', ran, free, same, _⟩ := sound.locks.releases proceeds holds
    rcases requests with ⟨rest, top⟩
    refine ⟨count, s', _, ran, run_lock ((same t other).trans top) free, ?_⟩
    exact Function.update_self ..
  producers away i := by
    have worker : Thread.worker i ≠ .game := by simp
    obtain ⟨s', ⟨actions, members, ran, same⟩, done⟩ :=
      cooperates.completes proceeds ⟨sound, away⟩ worker
    refine ⟨actions, s', fun action member => ?_, ran, done, same .game (by simp)⟩
    obtain ⟨t, worker, rfl⟩ := members action member
    cases t with
    | game => exact absurd rfl worker
    | worker j => exact ⟨j, rfl⟩

end Threads

/-- **No mutex of the module can deadlock**, in any state of any interleaving of the game thread
and any number of workers: no thread holds two mutexes, requests one while it holds one, or holds
one outside the module, so whoever holds a requested mutex releases it alone. -/
theorem no_deadlock {P : PahoOptions} {n : Nat} {actions : List (ThreadAction n)}
    {s : Threads P n} (ran : Transition.run Threads.step .initial actions = some s) :
    s.DeadlockFree :=
  (Threads.run_sound ran).deadlockFree

/-- A client, and a host that constructs it. -/
def contendedHost : Host := { Host.plain with construct := fun _ _ => .ok 7 }

/-- The client is made, the game thread is in AMXX's error handling, one worker has the client's
mutex to copy the connected handler, and another is about to lock it for the message handler. -/
def contended : List (ThreadAction 2) :=
  .call (.native .mqttCreate contendedHost [0, 0]) :: List.replicate 17 (.run .game) ++
    [.call (.native .mqttDestroy contendedHost []),
      .callback (.worker 0) 7 (.connected []), .callback (.worker 1) 7 (.message [] []),
      .run (.worker 0), .run (.worker 0), .run (.worker 0), .run (.worker 1)]

/-- Two workers at one mutex: the holder releases it alone, and both callbacks end while the game
thread stays away. -/
theorem no_deadlock_contended : ∃ s : Threads .plain 2,
    Transition.run Threads.step .initial contended = some s ∧
      s.Requests (.worker 1) (.handlerMutex 7) ∧
      s.holder (.handlerMutex 7) = some (.worker 0) ∧
      (∃ count s', Transition.run Threads.step s (List.replicate count (.run (.worker 0))) =
        some s' ∧ ∃ s'', s'.step (.run (.worker 1)) = some s'' ∧
          s''.holder (.handlerMutex 7) = some (.worker 1)) ∧
      s.stack .game = [.foreign] ∧
      ∃ actions s', (∀ action ∈ actions, ∃ j, action = .run (.worker j)) ∧
        Transition.run Threads.step s actions = some s' ∧ s'.stack (.worker 1) = [] ∧
        s'.stack .game = s.stack .game := by
  have state : (Transition.run Threads.step (.initial : Threads .plain 2) contended).map
      (fun s => (s.stack .game, (s.stack (.worker 1)).head?, s.holder (.handlerMutex 7))) =
      some ([.foreign], some (.lock (.handlerMutex 7)), some (.worker 0)) := by decide +kernel
  obtain ⟨s, ran, state⟩ := Option.map_eq_some_iff.mp state
  simp only [Prod.mk.injEq, List.head?_eq_some_iff] at state
  rcases state with ⟨pawn, requests, holds⟩
  have free := no_deadlock ran
  obtain ⟨count, s', s'', released, taken, locked⟩ := free.released requests holds
  have away : s.away .game = true := by
    rw [Threads.away, pawn]
  exact ⟨s, ran, requests, holds, ⟨count, s', released, s'', taken, locked⟩, pawn,
    free.producers away 1⟩

end AmxxMqtt
