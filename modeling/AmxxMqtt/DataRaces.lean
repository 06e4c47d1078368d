import AmxxMqtt.Locations

/-!
# No data races

In no reachable state can two threads take their next steps at one location that either of them
writes.  The queue and a client's handlers are under their mutexes, the memory of a client under
Paho's wait for its callbacks, and everything else is the game thread's alone.  A step of a thread,
a native or the return of `MQTTAsync_destroy` included, changes only what it writes.
-/

namespace AmxxMqtt

namespace Threads

variable {P : PahoOptions} {n : Nat}

/-- What a step writes. -/
inductive Writes (s : Threads P n) : ThreadAction n → Location → Prop
  | run {t : Thread n} {op : ThreadOp} {rest : List ThreadOp} {location : Location}
      (top : s.stack t = op :: rest) (writes : location ∈ op.writes) :
      Writes s (.run t) location
  /-- `MQTTAsync_destroy` returns, and the rest of the client is destroyed -/
  | freed {t : Thread n} {object : ObjectId} {rest : List ThreadOp} {location : Location}
      (top : s.stack t = .paho object .destroy :: rest)
      (part : location = .memory object ∨ location = .handlers object) :
      Writes s (.ret t) location
  /-- the part of a native before its first statement -/
  | native {native : Native} {host : Host} {args : List Cell} {location : Location}
      (ofGame : location.ofGame = true) : Writes s (.call (.native native host args)) location
  /-- a native constructs a client -/
  | constructed {native : Native} {host : Host} {args : List Cell} {object : ObjectId}
      {location : Location} (fresh : object ∉ s.shared.constructed)
      (part : location = .memory object ∨ location = .handlers object) :
      Writes s (.call (.native native host args)) location

/-- What a step reads, besides what it writes. -/
inductive Reads (s : Threads P n) : ThreadAction n → Location → Prop
  | run {t : Thread n} {op : ThreadOp} {rest : List ThreadOp} {location : Location}
      (top : s.stack t = op :: rest) (reads : location ∈ op.reads s.shared) :
      Reads s (.run t) location
  /-- a native looks up a client -/
  | native {native : Native} {host : Host} {args : List Cell} {object : ObjectId} :
      Reads s (.call (.native native host args)) (.memory object)
  /-- the engine calls the hooks that are installed -/
  | onServerFrame : Reads s (.call .onServerFrame) .frameHook

/-- Two threads can take their next steps at one location, and one of them writes it. -/
def Races (s : Threads P n) : Prop :=
  ∃ (first second : ThreadAction n) (location : Location), first.thread ≠ second.thread ∧
    (s.step first).isSome = true ∧ (s.step second).isSome = true ∧ s.Writes first location ∧
      (s.Writes second location ∨ s.Reads second location)

end Threads

/-! ## Two steps at one location -/

/-- What entitles a statement to a location: the mutex it works under, the client it uses, or that
it is the game thread's. -/
def ThreadOp.Entitled (op : ThreadOp) : Location → Prop
  | .queue => op.role.before = some .callbackMutex
  | .handlers object => op.role.before = some (.handlerMutex object) ∧ op.uses = some object
  | .memory object => op.uses = some object ∨ op.producing = false
  | _ => op.producing = false

theorem ThreadOp.entitled_of_writes {op : ThreadOp} {location : Location}
    (writes : location ∈ op.writes) : op.Entitled location := by
  cases op with
  | destroyOptions | resetOptions =>
      rcases List.mem_cons.mp writes with rfl | writes
      · rfl
      · cases List.mem_singleton.mp writes
        rfl
  | storeHandler | setStopping =>
      cases List.mem_singleton.mp writes
      exact ⟨rfl, rfl⟩
  | pushBack | setAccepting | clearPending | takeFront | emplace | resetClients | makeIndex
  | buildOptions | registerRehldsFrameHook | unregisterRehldsFrameHook =>
      cases List.mem_singleton.mp writes
      rfl
  | _ => cases writes

theorem ThreadOp.entitled_of_reads {P : PahoOptions} {s : Shared P} {op : ThreadOp}
    {location : Location} (reads : location ∈ op.reads s) : op.Entitled location := by
  rcases List.mem_append.mp reads with used | reads
  · obtain ⟨object, uses, rfl⟩ := List.mem_map.mp used
    exact .inl (Option.mem_toList.mp uses)
  · cases op with
    | readSize | destroyClient =>
        cases List.mem_singleton.mp reads
        rfl
    | copyHandler =>
        cases List.mem_singleton.mp reads
        exact ⟨rfl, rfl⟩
    | executeCallback event =>
        rcases List.mem_cons.mp reads with rfl | reads
        · rfl
        · rcases List.mem_cons.mp reads with rfl | reads
          · rfl
          · obtain ⟨client, _, rfl⟩ := List.mem_map.mp reads
            exact .inr rfl
    | _ => cases reads

namespace Threads

variable {P : PahoOptions} {n : Nat} {s s' : Threads P n} {t : Thread n}
  {action : ThreadAction n} {location : Location}

/-- A step that is not a statement's is the game thread's, and at locations of its own or at a
client it constructs or frees. -/
inductive Touches (s : Threads P n) : ThreadAction n → Location → Prop
  | run {t : Thread n} {op : ThreadOp} {rest : List ThreadOp} {location : Location}
      (top : s.stack t = op :: rest) (entitled : op.Entitled location) :
      Touches s (.run t) location
  | freed {object : ObjectId} {rest : List ThreadOp} {location : Location}
      (top : s.stack .game = .paho object .destroy :: rest)
      (part : location = .memory object ∨ location = .handlers object) :
      Touches s (.ret .game) location
  | called {call : GameCall} {location : Location} (unguarded : location ≠ .queue)
      (part : ∀ {object}, location = .handlers object → object ∉ s.shared.constructed) :
      Touches s (.call call) location

theorem touches_of_writes (sound : s.Sound) (writes : s.Writes action location) :
    s.Touches action location := by
  cases writes with
  | run top writes => exact .run top (ThreadOp.entitled_of_writes writes)
  | freed top part =>
      cases game_of_destroy sound top
      exact .freed top part
  | native ofGame =>
      refine .called (fun same => ?_) fun same => ?_
      all_goals
        rw [same] at ofGame
        cases ofGame
  | constructed fresh part =>
      refine .called (fun same => ?_) fun same => ?_
      · subst same
        simp at part
      · subst same
        simp only [reduceCtorEq, Location.handlers.injEq, false_or] at part
        exact part ▸ fresh

theorem touches_of_reads (reads : s.Reads action location) : s.Touches action location := by
  cases reads with
  | run top reads => exact .run top (ThreadOp.entitled_of_reads reads)
  | native => exact .called (by simp) (by simp)
  | onServerFrame => exact .called (by simp) (by simp)

/-- A worker touches a location only through a producer's statement that is entitled to it. -/
theorem touches_worker (sound : s.Sound) {i : Fin n} (touches : s.Touches action location)
    (thread : action.thread = .worker i) : action = .run (.worker i) ∧ ∃ op rest,
      s.stack (.worker i) = op :: rest ∧ op.producing = true ∧ op.Entitled location := by
  cases touches with
  | run top entitled =>
      cases thread
      exact ⟨rfl, _, _, top, (sound.workers_cons top).1, entitled⟩
  | freed | called => cases thread

/-- A worker uses the client at whose memory or handlers its next statement is. -/
theorem used_of_worker {op : ThreadOp} (producer : op.producing = true)
    (entitled : op.Entitled location) :
    location = .queue ∨ ∃ object, op.uses = some object ∧
      (location = .memory object ∨ location = .handlers object) := by
  cases location with
  | queue => exact .inl rfl
  | handlers object => exact .inr ⟨object, entitled.2, .inr rfl⟩
  | memory object =>
      refine .inr ⟨object, entitled.resolve_right fun game => ?_, .inl rfl⟩
      cases producer.symm.trans game
  | _ => cases producer.symm.trans entitled

/-- While a worker uses a client, `MQTTAsync_destroy` does not return. -/
theorem not_returned (tracked : s.Tracked) {i : Fin n} {op : ThreadOp} {rest : List ThreadOp}
    {object : ObjectId} (working : s.stack (.worker i) = op :: rest)
    (used : op.uses = some object) {below : List ThreadOp}
    (top : s.stack .game = .paho object .destroy :: below) : s.step (.ret .game) = none := by
  cases returned : s.step (.ret .game) with
  | none => rfl
  | some s' =>
      obtain ⟨ended, _, same, ends⟩ := ret_cases returned
      cases same.symm.trans top
      rcases ends with ⟨borrows, _⟩ | ⟨freed, is, quiet, _⟩
      · cases borrows
      · cases is
        have among : op ∈ s.stack (.worker i) := working ▸ List.mem_cons_self
        have covers : ThreadOp.discipline.Covered (s.stack (.worker i)) :=
          tracked.alive.covered (by simp)
        obtain ⟨cover, member, covered⟩ := covers.of_mem among used
        cases cover with
        | callbackReturn =>
            cases covered
            exact absurd member (quiet i)
        | _ => cases covered

/-- The client a worker uses was constructed earlier. -/
theorem constructed_of_use (tracked : s.Tracked) {op : ThreadOp} {rest : List ThreadOp}
    {object : ObjectId} (top : s.stack t = op :: rest) (used : op.uses = some object) :
    object ∈ s.shared.constructed := by
  have among : op ∈ s.stack t := top ▸ List.mem_cons_self
  rcases tracked.alive.live among used with ⟨handle, here⟩ | loose
  exacts [tracked.listed.known here, (tracked.loose_only loose).1]

theorem held_of_entitled {op : ThreadOp} {rest : List ThreadOp} {mutex : Mutex}
    (top : s.stack t = op :: rest) (works : op.role.before = some mutex) :
    Locks.held ThreadOp.role (s.view.stack t) = some mutex := by
  show Locks.held ThreadOp.role (s.stack t) = some mutex
  rw [top, Locks.held_cons, works]

/-- A worker and another thread meet only at the memory of a client that neither of them is about
to free or construct. -/
theorem meet_worker (tracked : s.Tracked) {i : Fin n} {op : ThreadOp} {rest : List ThreadOp}
    (top : s.stack (.worker i) = op :: rest) (producer : op.producing = true)
    (entitled : op.Entitled location) (touches : s.Touches action location)
    (other : action.thread ≠ .worker i) (enabled : (s.step action).isSome = true) :
    ∃ object, location = .memory object ∧ op.uses = some object ∧
      ∀ {below}, action = .ret .game → s.stack .game ≠ .paho object .destroy :: below := by
  have locks := tracked.sound.locks
  rcases used_of_worker producer entitled with rfl | ⟨object, used, part⟩
  · cases touches with
    | run second entitledToo =>
        exact absurd (locks.exclusive (held_of_entitled second entitledToo)
          (held_of_entitled top entitled)) other
    | freed second part => simp at part
    | called unguarded => exact absurd rfl unguarded
  · have staying {below : List ThreadOp} (is : action = .ret .game) :
        s.stack .game ≠ .paho object .destroy :: below := by
      intro freeing
      rw [is, not_returned tracked top used freeing] at enabled
      cases enabled
    rcases part with rfl | rfl
    · exact ⟨object, rfl, used, staying⟩
    · cases touches with
      | run second entitledToo =>
          exact absurd (locks.exclusive (held_of_entitled second entitledToo.1)
            (held_of_entitled top entitled.1)) other
      | freed second part =>
          simp only [reduceCtorEq, Location.handlers.injEq, false_or] at part
          exact absurd (part ▸ second) (staying rfl)
      | called _ fresh => exact absurd (constructed_of_use tracked top used) (fresh rfl)

/-- The memory of a client is written when it is constructed and when it is freed. -/
theorem not_writes_memory (tracked : s.Tracked) {i : Fin n} {op : ThreadOp} {rest : List ThreadOp}
    {object : ObjectId} (top : s.stack (.worker i) = op :: rest) (used : op.uses = some object)
    (staying : ∀ {below}, action = .ret .game → s.stack .game ≠ .paho object .destroy :: below) :
    ¬ s.Writes action (.memory object) := by
  intro writes
  cases writes with
  | @run t op rest location top writes =>
      cases op <;> simp [ThreadOp.writes] at writes
  | freed freeing part =>
      simp only [Location.memory.injEq, reduceCtorEq, or_false] at part
      cases game_of_destroy tracked.sound freeing
      exact staying rfl (part ▸ freeing)
  | native ofGame => cases ofGame
  | constructed fresh part =>
      simp only [Location.memory.injEq, reduceCtorEq, or_false] at part
      exact fresh (part ▸ constructed_of_use tracked top used)

theorem Tracked.raceFree (tracked : s.Tracked) : ¬ s.Races := by
  intro race
  rcases race with ⟨first, second, location, apart, enabled, enabledToo, writes, accesses⟩
  have touches := touches_of_writes tracked.sound writes
  have touchesToo : s.Touches second location := by
    rcases accesses with writesToo | reads
    exacts [touches_of_writes tracked.sound writesToo, touches_of_reads reads]
  cases thread : first.thread with
  | worker i =>
      obtain ⟨rfl, op, rest, top, producer, entitled⟩ :=
        touches_worker tracked.sound touches thread
      obtain ⟨object, rfl, used, _⟩ := meet_worker tracked top producer entitled touchesToo
        (fun same => apart (thread.trans same.symm)) enabledToo
      refine not_writes_memory tracked top used ?_ writes
      intro below is
      cases is
  | game =>
      obtain ⟨i, worker⟩ := worker_of_ne fun game => apart (thread.trans game.symm)
      obtain ⟨rfl, op, rest, top, producer, entitled⟩ :=
        touches_worker tracked.sound touchesToo worker
      obtain ⟨object, rfl, used, staying⟩ := meet_worker tracked top producer entitled touches
        (fun same => by cases thread.symm.trans same) enabled
      exact not_writes_memory tracked top used staying writes

end Threads

/-! ## What is not written stays the same -/

namespace Threads

variable {P : PahoOptions} {n : Nat} {s s' : Threads P n}

/-- A client that exists before and after changes its place, and nothing else changes. -/
theorem same_of_moves (tracked : s.Tracked) {op : ThreadOp} {statements rest : List ThreadOp}
    {shared : Shared P} {location : Location} (top : s.stack .game = op :: rest)
    (moves : op.movesClients = true) (executed : op.exec s.shared = some (shared, statements))
    (unwritten : location ≠ .manager) : location.Same s.shared shared := by
  have alive {object : ObjectId} (carries : s.shared.Carries shared)
      (before : s.lifetimes.live object → shared.kept object ∨ shared.loose object) :
      (shared.client object).isSome = (s.shared.client object).isSome := by
    rw [Bool.eq_iff_iff, Shared.client_isSome_iff]
    constructor
    · intro after
      obtain ⟨client, found⟩ := Option.isSome_iff_exists.mp (Shared.client_isSome_iff.mpr after)
      rw [carries _ _ found]
      rfl
    · exact fun found => before (live_iff.mpr found)
  cases op with
  | emplace handle object =>
      have execs := execs_emplace tracked top executed
      have room := tracked.room (top ▸ List.mem_cons_self)
      have free : handle ∉ s.shared.globals.clients.clients :=
        room.next ▸ tracked.clients.next_notMem
      have carries := Shared.carries_emplace tracked.listed free executed
      refine Location.same_of_carries carries (fun object => alive carries execs.live)
        (fun is => absurd is unwritten) ?_
      simp only [ThreadOp.exec] at executed
      split at executed <;> cases executed <;>
        exact ⟨fun _ => rfl, fun _ => rfl, fun _ => rfl, fun _ => rfl⟩
  | resetClients =>
      have execs := execs_resetClients tracked top executed
      have carries := Shared.carries_resetClients tracked.listed executed
      refine Location.same_of_carries carries (fun object => alive carries execs.live)
        (fun is => absurd is unwritten) ?_
      cases executed
      exact ⟨fun _ => rfl, fun _ => rfl, fun _ => rfl, fun _ => rfl⟩
  | _ => cases moves

section Native

variable {native : Native} {host : Host} {params : List Cell} {r : NativeReturn P}

theorem construct_cases (objects : List ObjectId)
    (unlisted : AList fun _ : ObjectId => AmxxMqttClient) {object : ObjectId}
    {client : AmxxMqttClient}
    (found : (objects.foldl (fun unlisted object =>
        unlisted.insert object ({ object } : AmxxMqttClient)) unlisted).lookup object =
      some client) :
    unlisted.lookup object = some client ∨ (object ∈ objects ∧ client = { object }) := by
  induction objects generalizing unlisted with
  | nil => exact .inl found
  | cons first objects ih =>
      rcases ih _ found with before | built
      · rw [Table.lookup_insert_iff] at before
        split at before
        · rename_i same
          cases before
          exact .inr ⟨same ▸ List.mem_cons_self, same ▸ rfl⟩
        · exact .inl before
      · exact .inr ⟨List.mem_cons_of_mem _ built.1, built.2⟩

/-- The clients there were before a native is entered keep their `MqttClient`. -/
theorem base_enterNative (tracked : s.Tracked)
    (listed : (s.enterNative native host params r).shared.Listed)
    (returns : Returns host params s.shared.globals native r)
    {object : ObjectId} (old : object ∉ r.objects) {client : AmxxMqttClient}
    (after : (s.enterNative native host params r).shared.client object = some client) :
    ∃ before, s.shared.client object = some before ∧ before.base = client.base := by
  rcases listed.client_iff.mp after with ⟨handle, live, rfl⟩ | loose
  · obtain ⟨before, was, same, base⟩ := kept_of_entered returns live
    exact ⟨before, tracked.listed.client_iff.mpr (.inl ⟨handle, was, same⟩), base⟩
  · rcases Shared.lookup_unlist _ _ loose with ⟨removed, own⟩ | constructed
    · refine ⟨client, tracked.listed.client_iff.mpr (.inl ?_), rfl⟩
      cases returns with
      | @destroyed handle arg => exact ⟨handle, Option.mem_toList.mp removed, own⟩
      | _ => cases removed
    · have before := (construct_cases _ _ constructed).resolve_right fun built => old built.1
      exact ⟨client, tracked.listed.client_iff.mpr (.inr before), rfl⟩

end Native

theorem ret_same (tracked : s.Tracked) {t : Thread n} {location : Location}
    (taken : s.step (.ret t) = some s') (unwritten : ¬ s.Writes (.ret t) location) :
    location.Same s.shared s'.shared := by
  have listed' := step_listed taken tracked.listed
  obtain ⟨op, rest, top, ends⟩ := ret_cases taken
  rcases ends with ⟨_, _, rfl⟩ | ⟨object, rfl, _, rfl⟩
  · exact Location.same_refl
  have carries : s.shared.Carries
      { s.shared with unlisted := s.shared.unlisted.erase object } := by
    intro other client after
    refine tracked.listed.client_iff.mpr ((listed'.client_iff.mp after).imp_right fun loose => ?_)
    rw [Table.lookup_erase_iff] at loose
    split at loose
    · cases loose
    · exact loose
  cases location with
  | memory other =>
      have different : other ≠ object := fun same => unwritten (.freed top (.inl (same ▸ rfl)))
      show Option.isSome _ = Option.isSome _
      rw [Bool.eq_iff_iff, Shared.client_isSome_iff, Shared.client_isSome_iff, Shared.loose_erase,
        and_iff_left different]
      exact Iff.rfl
  | handlers other =>
      intro client client' before after
      cases before.symm.trans (carries _ _ after)
      exact ⟨fun _ => rfl, rfl⟩
  | forwardIds =>
      intro other client client' before after
      cases before.symm.trans (carries _ _ after)
      exact fun _ => rfl
  | manager => exact ⟨fun _ => rfl, rfl⟩
  | queue | options | indexUsed | frameHook => rfl

/-- **A step changes only what it writes.** -/
theorem step_same (tracked : s.Tracked) {action : ThreadAction n} {location : Location}
    (taken : s.step action = some s') (unwritten : ¬ s.Writes action location) :
    location.Same s.shared s'.shared := by
  have tracked' := step_tracked taken tracked
  cases steps taken with
  | @exec t op shared statements rest top executed =>
      have apart : location ∉ op.writes := fun writes => unwritten (.run top writes)
      cases moves : op.movesClients with
      | false => exact Location.same_exec tracked.listed moves executed apart
      | true =>
          cases game_of_moves tracked.sound top moves
          refine same_of_moves tracked top moves executed fun is => apart ?_
          cases op with
          | emplace | resetClients => exact is ▸ List.mem_singleton_self _
          | _ => cases moves
  | @native native host args r callable invoked fresh =>
      have returns := Native.returns invoked
      cases location with
      | queue => exact queue_entered returns
      | memory object =>
          by_cases known : object ∈ s.shared.constructed
          · obtain ⟨_, before⟩ := live_of_step tracked taken known
            have after := (calls_enterNative tracked callable invoked).live (o := object)
            show Option.isSome _ = Option.isSome _
            rw [Bool.eq_iff_iff, ← live_iff, ← live_iff]
            exact ⟨before, after⟩
          · exact absurd (.constructed known (.inl rfl)) unwritten
      | handlers object =>
          by_cases known : object ∈ s.shared.constructed
          · intro client client' before after
            obtain ⟨found, was, base⟩ := base_enterNative tracked tracked'.listed returns
              (fun new => fresh object new known) after
            cases before.symm.trans was
            rw [base]
            exact ⟨fun _ => rfl, rfl⟩
          · exact absurd (.constructed known (.inr rfl)) unwritten
      | manager | forwardIds | options | indexUsed | frameHook =>
          exact absurd (.native rfl) unwritten
  | ret | pahoRet => exact ret_same tracked taken unwritten
  | lock | unlock | entered | callback | dispatch => exact Location.same_refl

end Threads

/-- What keeps the threads from racing. -/
structure Threads.RaceFree {P : PahoOptions} {n : Nat} (s : Threads P n) : Prop where
  apart : ¬ s.Races
  /-- a step changes only what it writes -/
  frame : ∀ {action s' location}, s.step action = some s' → ¬ s.Writes action location →
    location.Same s.shared s'.shared
  /-- where a statement's locations have the same contents, it leads to the same statements and
  writes the same -/
  access : ∀ {op : ThreadOp} {u s' u' : Shared P} {statements statements'}, u.Listed →
    (∀ location ∈ op.reads s.shared, location.Same s.shared u) →
    (∀ location ∈ op.writes, location.Same s.shared u) →
    op.exec s.shared = some (s', statements) → op.exec u = some (u', statements') →
      statements.Perm statements' ∧ ∀ location ∈ op.writes, location.Same s' u'

/-- **No two threads race**, in any state of any interleaving of the game thread and any number of
workers. -/
theorem no_data_race {P : PahoOptions} {n : Nat} {actions : List (ThreadAction n)}
    {s : Threads P n} (ran : Transition.run Threads.step .initial actions = some s) :
    s.RaceFree := by
  have tracked := Threads.run_tracked ran
  exact ⟨tracked.raceFree, Threads.step_same tracked,
    fun listed => Location.same_of_access tracked.listed listed⟩

/-- Both workers are at the client's handlers, one under the mutex and one before it. -/
theorem no_data_race_contended : ∃ s : Threads .plain 2,
    Transition.run Threads.step .initial contended = some s ∧
      s.Requests (.worker 1) (.handlerMutex 7) ∧
      s.holder (.handlerMutex 7) = some (.worker 0) ∧ ¬ s.Races := by
  have state : (Transition.run Threads.step (.initial : Threads .plain 2) contended).map
      (fun s => ((s.stack (.worker 1)).head?, s.holder (.handlerMutex 7))) =
      some (some (.lock (.handlerMutex 7)), some (.worker 0)) := by decide +kernel
  obtain ⟨s, ran, state⟩ := Option.map_eq_some_iff.mp state
  simp only [Prod.mk.injEq, List.head?_eq_some_iff] at state
  exact ⟨s, ran, state.1, state.2, (no_data_race ran).apart⟩

end AmxxMqtt
