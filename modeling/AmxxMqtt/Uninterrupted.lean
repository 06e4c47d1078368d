import AmxxMqtt.ThreadClients

/-!
# Statements run without interruption

`World` takes a native, a Paho callback and a producer's call in one step each.  `Does` says what
the statements of `Threads` do when one thread runs them alone, from a state in which no mutex is
taken, and the code outside the module returns at once.  It is what the one step of `World` does.
-/

namespace AmxxMqtt

namespace Threads

variable {P : PahoOptions} {n : Nat} {s s' s'' : Threads P n} {t : Thread n}

/-- The second state is reached from the first by steps of one thread, which is not called from
outside meanwhile. -/
def Uninterrupted (t : Thread n) (s s' : Threads P n) : Prop :=
  ∃ actions, (∀ action ∈ actions, action = .run t ∨ action = .ret t) ∧
    Transition.run step s actions = some s'

namespace Uninterrupted

theorem refl : Uninterrupted t s s :=
  ⟨[], by simp, rfl⟩

theorem run (taken : s.run t = some s') (later : Uninterrupted t s' s'') :
    Uninterrupted t s s'' := by
  rcases later with ⟨actions, own, ran⟩
  exact ⟨.run t :: actions, List.forall_mem_cons.mpr ⟨.inl rfl, own⟩,
    Transition.run_cons.mpr ⟨s', taken, ran⟩⟩

theorem ret (taken : s.ret t = some s') (later : Uninterrupted t s' s'') :
    Uninterrupted t s s'' := by
  rcases later with ⟨actions, own, ran⟩
  exact ⟨.ret t :: actions, List.forall_mem_cons.mpr ⟨.inr rfl, own⟩,
    Transition.run_cons.mpr ⟨s', taken, ran⟩⟩

end Uninterrupted

/-- The thread has this left to run, and this is shared. -/
def resume (s : Threads P n) (t : Thread n) (shared : Shared P) (rest : List ThreadOp) :
    Threads P n :=
  { s with shared, stack := Function.update s.stack t rest }

@[simp] theorem resume_stack (shared : Shared P) (rest : List ThreadOp) :
    (s.resume t shared rest).stack t = rest :=
  Function.update_self ..

@[simp] theorem resume_resume (first second : Shared P) (above rest : List ThreadOp) :
    (s.resume t first above).resume t second rest = s.resume t second rest := by
  simp only [resume, Function.update_idem]

/-- No mutex is taken, and no other thread is inside a Paho callback. -/
structure Undisturbed (s : Threads P n) (t : Thread n) : Prop where
  free : ∀ mutex, s.holder mutex = none
  quiet : ∀ i, .worker i ≠ t → ∀ object, .callbackReturn object ∉ s.stack (.worker i)

theorem Undisturbed.resume (undisturbed : s.Undisturbed t) (shared : Shared P)
    (rest : List ThreadOp) : (s.resume t shared rest).Undisturbed t where
  free := undisturbed.free
  quiet i other object := by
    show _ ∉ Function.update s.stack t rest (.worker i)
    rw [Function.update_of_ne other]
    exact undisturbed.quiet i other object

/-- What a thread shares with the others says nothing about the mutexes. -/
theorem Undisturbed.share (undisturbed : s.Undisturbed t) (shared : Shared P) :
    ({ s with shared } : Threads P n).Undisturbed t :=
  ⟨undisturbed.free, undisturbed.quiet⟩

theorem Undisturbed.of_game (undisturbed : s.Undisturbed .game) : s.Undisturbed t :=
  ⟨undisturbed.free, fun i _ => undisturbed.quiet i (by simp)⟩

/-- Run by the thread alone, the statements lead from what is shared first to what is shared then,
with these left to run. -/
def Does (t : Thread n) (statements : List ThreadOp) (shared : Shared P) (left : List ThreadOp)
    (shared' : Shared P) : Prop :=
  ∀ (s : Threads P n) (rest : List ThreadOp), s.Undisturbed t → s.shared = shared →
    s.stack t = statements ++ rest → Uninterrupted t s (s.resume t shared' (left ++ rest))

namespace Does

variable {statements more after left : List ThreadOp} {shared shared₁ shared' : Shared P}
  {op : ThreadOp} {mutex : Mutex} {object : ObjectId}

theorem done : Does t left shared left shared := by
  intro s rest _ same top
  have unchanged : s.resume t shared (left ++ rest) = s := by
    rw [resume, ← same, ← top, Function.update_eq_self]
  rw [unchanged]
  exact .refl

/-- One statement, and what it leads to. -/
theorem exec (executed : op.exec shared = some (shared₁, more))
    (later : Does t (more ++ statements) shared₁ left shared') :
    Does t (op :: statements) shared left shared' := by
  intro s rest undisturbed same top
  have taken : s.run t = some (s.resume t shared₁ (more ++ (statements ++ rest))) :=
    run_exec top (same ▸ executed)
  have next := later _ rest (undisturbed.resume shared₁ (more ++ (statements ++ rest))) rfl
    (by simp)
  rw [resume_resume] at next
  exact .run taken next

/-- A critical section of one statement. -/
theorem guarded (executed : op.exec shared = some (shared₁, more))
    (released : more ++ statements = .unlock mutex :: after)
    (later : Does t after shared₁ left shared') :
    Does t (.lock mutex :: op :: statements) shared left shared' := by
  intro s rest undisturbed same top
  let locked : Threads P n := { s with
    holder := Function.update s.holder mutex (some t)
    stack := Function.update s.stack t (op :: (statements ++ rest)) }
  let worked := locked.resume t shared₁ (more ++ (statements ++ rest))
  have first : s.run t = some locked := run_lock top (undisturbed.free mutex)
  have second : locked.run t = some worked :=
    run_exec (Function.update_self ..) (same ▸ executed)
  have third : worked.run t = some (s.resume t shared₁ (after ++ rest)) := by
    have top : worked.stack t = .unlock mutex :: (after ++ rest) := by
      rw [resume_stack, ← List.append_assoc, released, List.cons_append]
    rw [run_unlock top]
    have back : Function.update worked.holder mutex none = s.holder := by
      simp only [worked, locked, Threads.resume, Function.update_idem, Function.update_eq_self_iff]
      exact (undisturbed.free mutex).symm
    simp only [back]
    simp only [worked, locked, Threads.resume, Function.update_idem]
  have next := later _ rest (undisturbed.resume shared₁ (after ++ rest)) rfl (by simp)
  rw [resume_resume] at next
  exact .run first (.run second (.run third next))

/-- Pawn, AMXX or the engine returns. -/
theorem foreign (later : Does t statements shared left shared') :
    Does t (.foreign :: statements) shared left shared' := by
  intro s rest undisturbed same top
  have taken : s.ret t = some (s.resume t shared (statements ++ rest)) := by
    simp only [Threads.ret, top, List.cons_append, Threads.resume, ← same]
  have next := later _ rest (undisturbed.resume shared (statements ++ rest)) rfl (by simp)
  rw [resume_resume] at next
  exact .ret taken next

/-- A request returns. -/
theorem request {operation : PahoOp} (living : operation ≠ .destroy)
    (later : Does t statements shared left shared') :
    Does t (.paho object operation :: statements) shared left shared' := by
  intro s rest undisturbed same top
  have taken : s.ret t = some (s.resume t shared (statements ++ rest)) := by
    simp only [Threads.ret, top, List.cons_append, Threads.resume, ← same, if_neg living]
  have next := later _ rest (undisturbed.resume shared (statements ++ rest)) rfl (by simp)
  rw [resume_resume] at next
  exact .ret taken next

/-- The destruction of a Paho object returns. -/
theorem destroy (later : Does (n := n) .game statements
      { shared with unlisted := shared.unlisted.erase object } left shared') :
    Does (n := n) .game (.paho object .destroy :: statements) shared left shared' := by
  intro s rest undisturbed same top
  have quiet : s.quiet object := fun i => undisturbed.quiet i (by simp) object
  have taken : s.ret .game = some (s.resume .game
      { shared with unlisted := shared.unlisted.erase object } (statements ++ rest)) := by
    simp only [Threads.ret, top, List.cons_append, Threads.resume, ← same, if_pos quiet, ↓reduceIte]
  have next := later _ rest (undisturbed.resume _ (statements ++ rest)) rfl (by simp)
  rw [resume_resume] at next
  exact .ret taken next

/-- The statements of a call from outside are run to their end. -/
theorem pushed (does : Does t statements s.shared [] shared') (undisturbed : s.Undisturbed t) :
    Uninterrupted t (s.push t statements) { s with shared := shared' } := by
  have top : (s.push t statements).stack t = statements ++ s.stack t := by
    rw [push_stack, Function.update_self]
  have unchanged : (s.push t statements).resume t shared' (s.stack t) =
      { s with shared := shared' } := by
    simp only [Threads.resume, push, Function.update_idem, Function.update_eq_self]
  rw [← unchanged]
  exact does _ _ (undisturbed.resume s.shared _) rfl top

/-! ## The operations -/

theorem enqueueCallback {event : CallbackEvent}
    (later : Does t statements
      (shared.setQueue (shared.globals.queue.enqueueCallback event)) left shared') :
    Does t (.enqueueCallback event :: statements) shared left shared' := by
  exact exec rfl (guarded rfl rfl later)

theorem setHandler {type : CallbackType} {handler : BoundHandler}
    (later : Does t statements
      (shared.modifyBase object (MqttClient.setHandler type (some handler))) left shared') :
    Does t (.setHandler object type handler :: statements) shared left shared' :=
  exec rfl (guarded rfl rfl later)

theorem destroyClient (later : Does (n := n) .game statements
      (let stopped := shared.modifyBase object fun base => { base with stopping := true }
       { stopped with unlisted := stopped.unlisted.erase object }) left shared') :
    Does (n := n) .game (.destroyClient object :: statements) shared left shared' :=
  exec rfl (guarded rfl rfl (destroy later))

/-- A copied handler, called. -/
def notified (object : ObjectId) (type : CallbackType) (notification : Notification)
    (shared : Shared P) : Shared P :=
  match (shared.client object).bind fun client => client.base.copyHandler type with
  | some handler =>
      shared.setQueue
        (shared.globals.queue.enqueueCallback (handler.invoke notification).event)
  | none => shared

theorem callHandler {type : CallbackType} {notification : Notification}
    (later : Does t statements (notified object type notification shared) left shared') :
    Does t (.callHandler object type notification :: statements) shared left shared' := by
  refine exec rfl ?_
  unfold notified at later
  cases found : (shared.client object).bind fun client => client.base.copyHandler type with
  | none =>
      rw [found] at later
      have copied : (ThreadOp.copyHandler object type notification).exec shared =
          some (shared, [.unlock (.handlerMutex object)]) := by
        simp only [ThreadOp.exec, found]
      exact guarded copied rfl later
  | some handler =>
      rw [found] at later
      have copied : (ThreadOp.copyHandler object type notification).exec shared =
          some (shared, [.unlock (.handlerMutex object), .invoke handler notification]) := by
        simp only [ThreadOp.exec, found]
      exact guarded copied rfl (exec rfl (enqueueCallback (exec rfl later)))

/-- A number is reserved for the object built next. -/
theorem exec_makeIndex {failure : Option (OptionsStage × Thrown)} {index : Int}
    (found : shared.globals.options.freeIndex = some index) :
    (ThreadOp.makeIndex failure).exec shared =
      some (shared.setOptions { shared.globals.options with
          indexUsed := insert index shared.globals.options.indexUsed },
        [.unlock .optionsMutex, .buildOptions index failure]) := by
  simp only [ThreadOp.exec, ConnectOptionMgr.makeIndex, found]

theorem makeOptions {failure : Option (OptionsStage × Thrown)}
    (later : Does t statements
      (shared.setOptions (shared.globals.options.make failure).2) left shared') :
    Does t (.makeOptions failure :: statements) shared left shared' := by
  refine exec rfl ?_
  have cases := shared.globals.options.make_cases failure
  generalize shared.globals.options.make failure = result at cases later
  cases cases with
  | full full =>
      have indexed : (ThreadOp.makeIndex failure).exec shared =
          some (shared.setOptions shared.globals.options, [.unlock .optionsMutex, .foreign]) := by
        simp only [ThreadOp.exec, ConnectOptionMgr.makeIndex, full]
      exact guarded indexed rfl (foreign later)
  | @failed index stage thrown found failed =>
      let reserved := shared.setOptions { shared.globals.options with
        indexUsed := insert index shared.globals.options.indexUsed }
      have nonzero := ConnectOptionMgr.freeIndex_ne_zero found
      have built : (ThreadOp.buildOptions index failure).exec reserved =
          some (reserved, [.foreign]) := by
        simp only [ThreadOp.exec, nonzero, ne_eq, not_false_eq_true, ↓reduceIte, failed]
      exact guarded (exec_makeIndex found) rfl (exec built (foreign later))
  | @made index found whole =>
      let reserved := shared.setOptions { shared.globals.options with
        indexUsed := insert index shared.globals.options.indexUsed }
      have nonzero := ConnectOptionMgr.freeIndex_ne_zero found
      have built : (ThreadOp.buildOptions index failure).exec reserved =
          some (reserved.setOptions { reserved.globals.options with
            options := reserved.globals.options.options.insert index
              (some ⟨P.version5, P.noProperties⟩) }, []) := by
        simp only [ThreadOp.exec, nonzero, ne_eq, not_false_eq_true, ↓reduceIte, whole]
      exact guarded (exec_makeIndex found) rfl (exec built later)

/-- What a Paho callback stores in its client. -/
def stored (object : ObjectId) (callback : PahoCallback) (shared : Shared P) : Shared P :=
  match callback.stored with
  | some value => shared.modifyBase object fun base => { base with isConnected := value }
  | none => shared

/-- A Paho callback. -/
theorem callback {callback : PahoCallback}
    (later : Does t statements (notified object callback.type callback.notification
      (stored object callback shared)) left shared') :
    Does t (callback.statements object ++ statements) shared left shared' := by
  unfold stored at later
  unfold PahoCallback.statements
  cases stores : callback.stored with
  | none =>
      rw [stores] at later
      exact callHandler (exec rfl later)
  | some value =>
      rw [stores] at later
      exact exec rfl (callHandler (exec rfl later))

end Does

end Threads

end AmxxMqtt
