import AmxxMqtt.ClientBodies

/-!
# Every client of the module is a `ClientSystem`

Whatever the module's threads do to its clients, with every lock and unlock a step of its own, is a
run of `Clients`: each object goes through the steps of a `ClientSystem`, and the order in which
the clients are seen to do things is the same.  So what is proved of one client among its threads
holds of every client of the module.
-/

namespace AmxxMqtt

open Refinement

/-- The statement is seen to happen to a client. -/
def ThreadOp.shown : ThreadOp → Bool
  | .storeHandler _ _ _ | .storeConnected _ _ | .copyHandler _ _ _ | .invoke _ _
  | .setStopping _ => true
  | _ => false

theorem ThreadOp.rewrite_of_unshown {op : ThreadOp} (unshown : op.shown = false)
    (object : ObjectId) (base : MqttClient BoundHandler) : op.rewrite object base = base := by
  cases op <;> first | rfl | cases unshown

namespace Threads

variable {P : PahoOptions} {n : Nat} {s s' : Threads P n} {t : Thread n} {f g : Clients}
  {action : ThreadAction n} {object : ObjectId} {client : AmxxMqttClient}

/-- What a step shows of the clients. -/
def sights (s : Threads P n) : ThreadAction n → List ClientSight
  | .run t =>
      match s.stack t with
      | .storeHandler object type handler :: _ => [.installed object type (some handler)]
      | .storeConnected object value :: _ => [.stored object value]
      | .copyHandler object type _ :: _ =>
          [.copied object type
            ((s.shared.client object).bind fun client => client.base.copyHandler type)]
      | .invoke handler _ :: _ => [.invoked handler]
      | .setStopping object :: _ => [.stopped object]
      | _ => []
  | .ret t =>
      match s.stack t with
      | .paho object .destroy :: _ => [.destroyed object]
      -- the request has thrown
      | .paho object .disconnect :: .callHandler _ _ _ :: _ => [.began object .disconnectThrew]
      | _ => []
  | .callback _ object callback => [.began object (.paho callback)]
  | .call _ | .dispatch _ _ => []

/-- The clients a state of the module stands for. -/
structure Follows (s : Threads P n) (f : Clients) : Prop where
  clients : ∀ {object client}, s.shared.client object = some client →
    (f object).client = client.base ∧ (f object).destroyed = false
  gone : ∀ {object}, object ∈ s.shared.constructed → s.shared.client object = none →
    (f object).destroyed = true
  unborn : ∀ {object}, object ∉ s.shared.constructed → f object = .initial
  valid : ∀ object, (f object).Valid
  bodies : ∃ active, Bodies f.running s.stack active

theorem follows_initial : (initial : Threads P n).Follows Clients.initial where
  clients found := nomatch found
  gone known := absurd known List.not_mem_nil
  unborn _ := rfl
  valid _ := .initial
  bodies := by
    refine ⟨fun _ => none, fun _ => .idle .nil, fun found => ?_, fun same => ?_⟩
    · cases found
    · cases same

/-! ## What a step does to the clients -/

/-- Paho has destroyed its object and the destructor ends. -/
def Destroys (s : Threads P n) (action : ThreadAction n) (object : ObjectId) : Prop :=
  action = .ret .game ∧ ∃ rest, s.stack .game = .paho object .destroy :: rest

theorem not_destroys (other : action ≠ .ret .game) : ¬ s.Destroys action object :=
  fun ends => other ends.1

theorem not_destroys_ret {op : ThreadOp} {rest : List ThreadOp} (top : s.stack t = op :: rest)
    (other : op ≠ .paho object .destroy) : ¬ s.Destroys (.ret t) object := by
  rintro ⟨⟨⟩, _, top'⟩
  exact other (List.cons.inj (top.symm.trans top')).1

/-- A client is there until its destructor has ended. -/
theorem persists (tracked : s.Tracked) (taken : s.step action = some s')
    (found : s.shared.client object = some client) (kept : ¬ s.Destroys action object) :
    ∃ client', s'.shared.client object = some client' := by
  have unwritten : ¬ s.Writes action (.memory object) := by
    intro writes
    cases writes with
    | @run t op _ _ top writes => cases op <;> simp [ThreadOp.writes] at writes
    | @freed t target _ _ top part =>
        cases game_of_destroy tracked.sound top
        rcases part with same | same <;> cases same
        exact kept ⟨rfl, _, top⟩
    | native ofGame => cases ofGame
    | constructed fresh part =>
        rcases part with same | same <;> cases same
        exact fresh (known_of_client tracked found)
  have same : Option.isSome _ = Option.isSome _ := step_same tracked taken unwritten
  rw [found] at same
  exact Option.isSome_iff_exists.mp same

/-- A client that the step constructs is there after it. -/
theorem client_of_constructed (taken : s.step action = some s')
    (unknown : object ∉ s.shared.constructed) (known : object ∈ s'.shared.constructed) :
    (s'.shared.client object).isSome = true := by
  cases steps taken with
  | native callable invoked fresh =>
      rw [Shared.client_isSome_iff]
      refine .inr (loose_enterNative.mpr (.inr (.inl ?_)))
      exact (List.mem_append.mp known).resolve_right unknown
  | exec top executed => exact absurd (constructed_exec executed ▸ known) unknown
  | pahoRet top destroyed left =>
      rcases left with rfl | rfl <;> exact absurd known unknown
  | lock | unlock | ret | entered | callback | dispatch => exact absurd known unknown

theorem Follows.step_with (follows : s.Follows f) (tracked : s.Tracked)
    (taken : s.step action = some s')
    (clients : ∀ {object client}, s.shared.client object = some client →
      (g object).client = s.rewrite object client.base action ∧
        ((g object).destroyed = true ↔ s'.shared.client object = none))
    (others : ∀ {object}, s.shared.client object = none → g object = f object)
    (valid : ∀ object, (g object).Valid) (bodies : ∃ active, Bodies g.running s'.stack active) :
    s'.Follows g where
  clients {object client'} after := by
    rcases client_of_step tracked taken after with ⟨client, before, same⟩ | ⟨unknown, new⟩
    · obtain ⟨base, alive⟩ := clients before
      rw [after] at alive
      exact ⟨base.trans same.symm, Bool.eq_false_iff.mpr fun gone => nomatch alive.mp gone⟩
    · have absent : s.shared.client object = none := by
        rw [← Option.not_isSome_iff_eq_none, Option.isSome_iff_exists]
        rintro ⟨client, found⟩
        exact unknown (known_of_client tracked found)
      rw [others absent, follows.unborn unknown, new]
      exact ⟨rfl, rfl⟩
  gone {object} known absent := by
    by_cases old : object ∈ s.shared.constructed
    · cases before : s.shared.client object with
      | none =>
          rw [others before]
          exact follows.gone old before
      | some client => exact (clients before).2.mpr absent
    · have alive := client_of_constructed taken old known
      rw [absent] at alive
      cases alive
  unborn {object} unknown := by
    have old : object ∉ s.shared.constructed := fun known =>
      unknown (live_of_step tracked taken known).1
    have absent : s.shared.client object = none := by
      rw [← Option.not_isSome_iff_eq_none, Option.isSome_iff_exists]
      rintro ⟨client, found⟩
      exact old (known_of_client tracked found)
    rw [others absent]
    exact follows.unborn old
  valid := valid
  bodies := bodies

/-- A step that does nothing to the clients. -/
theorem Follows.stutter (follows : s.Follows f) (tracked : s.Tracked)
    (taken : s.step action = some s')
    (plain : ∀ object base, s.rewrite object base action = base)
    (kept : ∀ object, ¬ s.Destroys action object)
    (bodies : ∃ active, Bodies f.running s'.stack active) : s'.Follows f := by
  refine follows.step_with tracked taken (fun {object client} found => ?_) (fun _ => rfl)
    follows.valid bodies
  obtain ⟨base, alive⟩ := follows.clients found
  obtain ⟨client', still⟩ := persists tracked taken found (kept object)
  rw [plain, base, alive, still]
  simp

/-- A step of one client. -/
theorem Follows.move (follows : s.Follows f) (tracked : s.Tracked)
    (taken : s.step action = some s') (found : s.shared.client object = some client)
    {after : ClientSystem BoundHandler}
    (rewritten : after.client = s.rewrite object client.base action)
    (destroyed : after.destroyed = true ↔ s'.shared.client object = none)
    (elsewhere : ∀ other, other ≠ object → (∀ base, s.rewrite other base action = base) ∧
      ¬ s.Destroys action other) (valid : after.Valid)
    (bodies : ∃ active, Bodies (Clients.running (Function.update f object after)) s'.stack active) :
    s'.Follows (Function.update f object after) := by
  refine follows.step_with tracked taken (fun {other client'} there => ?_)
    (fun {other} absent => ?_) (fun other => ?_) bodies
  · by_cases this : other = object
    · subst this
      cases found.symm.trans there
      rw [Function.update_self]
      exact ⟨rewritten, destroyed⟩
    · obtain ⟨plain, kept⟩ := elsewhere other this
      obtain ⟨base, alive⟩ := follows.clients there
      obtain ⟨client'', still⟩ := persists tracked taken there kept
      rw [Function.update_of_ne this, plain, base, alive, still]
      simp
  · refine Function.update_of_ne ?_ ..
    rintro rfl
    cases found.symm.trans absent
  · by_cases this : other = object
    · subst this
      rw [Function.update_self]
      exact valid
    · rw [Function.update_of_ne this]
      exact follows.valid other

/-! ## What the clients do with a step -/

/-- A run of the clients that shows what the step shows. -/
def Renders (s : Threads P n) (action : ThreadAction n) (s' : Threads P n) (f : Clients) : Prop :=
  ∃ acts g, Transition.run Clients.step f acts = some g ∧
    observed Clients.step Clients.shows f acts = s.sights action ∧ s'.Follows g

theorem Follows.silent (follows : s'.Follows f) (quiet : s.sights action = []) :
    s.Renders action s' f :=
  ⟨[], f, rfl, quiet.symm, follows⟩

theorem renders_act {act : ClientAction BoundHandler} {after : ClientSystem BoundHandler}
    (taken : (f object).anyStep act = some after)
    (same : ((f object).shows act).map (ClientEvent.sight object) = s.sights action)
    (follows : s'.Follows (Function.update f object after)) : s.Renders action s' f := by
  have stepped := Clients.step_of_anyStep taken
  exact ⟨[(object, act)], _, Transition.run_singleton.mpr stepped,
    (observed_singleton stepped).trans same, follows⟩

theorem running_update {after : ClientSystem BoundHandler} {id : Nat}
    {now : Option (Activation BoundHandler)}
    (lookup : ∀ other, after.running.lookup other =
      if other = id then now else (f object).running.lookup other) :
    Clients.running (Function.update f object after) =
      Function.update f.running (object, id) now := by
  funext x
  rcases x with ⟨other, number⟩
  by_cases this : other = object
  · subst this
    simp only [Clients.running, Function.update_self, lookup]
    by_cases same : number = id
    · subst same
      rw [if_pos rfl, Function.update_self]
    · rw [if_neg same, Function.update_of_ne (by simpa using same)]
      rfl
  · rw [Function.update_of_ne (by simp [this]), Clients.running, Clients.running]
    simp only [Function.update_of_ne this]

theorem running_same {after : ClientSystem BoundHandler}
    (same : after.running = (f object).running) :
    Clients.running (Function.update f object after) = f.running := by
  funext x
  rcases x with ⟨other, number⟩
  simp only [Clients.running]
  by_cases this : other = object
  · subst this
    rw [Function.update_self, same]
  · rw [Function.update_of_ne this]

theorem sights_run {op : ThreadOp} {rest : List ThreadOp} (top : s.stack t = op :: rest)
    (unshown : op.shown = false) : s.sights (.run t) = [] := by
  simp only [sights, top]
  cases op <;> first | rfl | cases unshown

/-! ### Statements that are not seen -/

section Run

variable {op : ThreadOp} {rest statements : List ThreadOp} {shared : Shared P}

theorem exec_of_run (taken : s.step (.run t) = some s') (top : s.stack t = op :: rest)
    (executes : op.executes = true) : ∃ shared statements,
    op.exec s.shared = some (shared, statements) ∧
      s' = { s with shared, stack := Function.update s.stack t (statements ++ rest) } := by
  cases steps taken with
  | lock top' | unlock top' =>
      cases top.symm.trans top'
      cases executes
  | exec top' executed =>
      cases top.symm.trans top'
      exact ⟨_, _, executed, rfl⟩

theorem renders_unshown (tracked : s.Tracked) (follows : s.Follows f)
    (taken : s.step (.run t) = some s') (top : s.stack t = op :: rest)
    (unshown : op.shown = false) {above : List ThreadOp}
    (stack : s'.stack = Function.update s.stack t above)
    (doing : ∀ {now}, Top f.running t op rest now → Doing f.running t now above) :
    s.Renders (.run t) s' f := by
  refine Follows.silent (follows.stutter tracked taken (fun object base => ?_)
    (fun _ => not_destroys (by simp)) ?_) (sights_run top unshown)
  · rw [rewrite_run top]
    exact op.rewrite_of_unshown unshown object base
  · rcases follows.bodies with ⟨active, bodies⟩
    have before := bodies.doing t
    rw [top] at before
    rw [stack]
    exact ⟨active, bodies.restack (doing before.top)⟩

theorem renders_lock (tracked : s.Tracked) (follows : s.Follows f)
    (taken : s.step (.run t) = some s') {mutex : Mutex} (top : s.stack t = .lock mutex :: rest)
    (stack : s'.stack = Function.update s.stack t rest) : s.Renders (.run t) s' f := by
  refine renders_unshown tracked follows taken top rfl stack fun inside => ?_
  cases inside with
  | idle inert => exact .idle (inert.tail (by simp))
  | busy under body here refused returns inert =>
      cases body with
      | lock =>
          subst under
          exact .busy .copy here refused returns inert

theorem renders_unlock (tracked : s.Tracked) (follows : s.Follows f)
    (taken : s.step (.run t) = some s') {mutex : Mutex} (top : s.stack t = .unlock mutex :: rest)
    (stack : s'.stack = Function.update s.stack t rest) : s.Renders (.run t) s' f := by
  refine renders_unshown tracked follows taken top rfl stack fun inside => ?_
  cases inside with
  | idle inert => exact .idle (inert.tail (by simp))
  | busy under body here refused returns inert =>
      cases body with
      | found =>
          subst under
          exact .busy .invoke here refused returns inert

theorem renders_callHandler (tracked : s.Tracked) (follows : s.Follows f)
    (taken : s.step (.run t) = some s') {type : CallbackType} {notification : Notification}
    (top : s.stack t = .callHandler object type notification :: rest) :
    s.Renders (.run t) s' f := by
  obtain ⟨shared, statements, executed, rfl⟩ := exec_of_run taken top rfl
  cases executed
  refine renders_unshown tracked follows taken top rfl rfl fun inside => ?_
  cases inside with
  | idle inert => cases inert.top
  | busy under body here refused returns inert =>
      cases body with
      | call =>
          subst under
          exact .busy .lock here refused returns inert

/-- A statement outside the bodies. -/
theorem renders_outside (tracked : s.Tracked) (follows : s.Follows f)
    (taken : s.step (.run t) = some s') (top : s.stack t = op :: rest)
    (executed : op.exec s.shared = some (shared, statements))
    (stack : s'.stack = Function.update s.stack t (statements ++ rest))
    (outside : op.inBody = false) (unshown : op.shown = false) : s.Renders (.run t) s' f := by
  refine renders_unshown tracked follows taken top unshown stack fun inside => ?_
  cases inside with
  | idle inert =>
      refine .idle (Inert.append (inBody_exec outside executed) (inert.tail ?_))
      rintro object rfl
      cases executed
  | busy under body =>
      cases body with
      | store | call | copy | invoke => cases outside
      | lock | found => cases executed

/-! ### Statements of a body -/

/-- The client of a body is there. -/
theorem Follows.client_of_running (follows : s.Follows f) {x : ObjectId × Nat}
    {activation : Activation BoundHandler} (here : f.running x = some activation) :
    ∃ client, s.shared.client x.1 = some client := by
  cases found : s.shared.client x.1 with
  | some client => exact ⟨client, rfl⟩
  | none =>
      by_cases known : x.1 ∈ s.shared.constructed
      · have finished := ((follows.valid x.1).finished (follows.gone known found)).2
        have key : x.2 ∈ (f x.1).running :=
          AList.lookup_isSome.mp (Option.isSome_of_eq_some here)
        rw [AList.mem_keys, finished] at key
        cases key
      · rw [Clients.running, follows.unborn known] at here
        cases here

/-- A thread runs the next statement of its activation. -/
theorem renders_advance (tracked : s.Tracked) (follows : s.Follows f)
    (taken : s.step (.run t) = some s') {active : Thread n → Option (ObjectId × Nat)}
    (bodies : Bodies f.running s.stack active) {x : ObjectId × Nat} (is : active t = some x)
    {trigger : Trigger} {statement : Statement} {remaining : List Statement}
    {copy : Option BoundHandler}
    (here : f.running x = some ⟨trigger, statement :: remaining, copy⟩)
    {client : AmxxMqttClient} (found : s.shared.client x.1 = some client) {above : List ThreadOp}
    (stack : s'.stack = Function.update s.stack t above)
    (base : (client.base.execute copy statement).1 = s.rewrite x.1 client.base (.run t))
    (elsewhere : ∀ other, other ≠ x.1 → ∀ base, s.rewrite other base (.run t) = base)
    (shows : (statement.event x.2 (client.base.execute copy statement).2.1
      (client.base.execute copy statement).2.2).toList.map (ClientEvent.sight x.1) =
        s.sights (.run t))
    (doing : ∀ now : Option (Activation BoundHandler),
      now = (if remaining = [] then none
        else some ⟨trigger, remaining, (client.base.execute copy statement).2.1⟩) →
      Doing (Function.update f.running x now) t (now.map fun _ => x) above) :
    s.Renders (.run t) s' f := by
  obtain ⟨same, alive⟩ := follows.clients found
  have advances := ClientSystem.anyStep_advance here
  refine renders_act advances ?_ (follows.move tracked taken found ?_ ?_ (fun other different =>
    ⟨elsewhere other different, not_destroys (by simp)⟩) ((follows.valid _).anyStep advances) ?_)
  · rw [ClientSystem.shows_advance here, same]
    exact shows
  · rw [← base, ← same]
    rfl
  · obtain ⟨client', still⟩ := persists tracked taken found (not_destroys (by simp))
    have kept : ((f x.1).execute x.2 ⟨trigger, statement :: remaining, copy⟩ statement
        remaining).destroyed = (f x.1).destroyed := rfl
    rw [kept, alive, still]
    simp
  · have replaced := bodies.replace (fun u other => bodies.apart other is) (.inr is) (doing _ rfl)
    rw [running_update fun other => ClientSystem.lookup_execute x.2 other _ _ _ _, stack, same]
    exact ⟨_, replaced⟩

theorem renders_storeConnected (tracked : s.Tracked) (follows : s.Follows f)
    (taken : s.step (.run t) = some s') {value : Bool}
    (top : s.stack t = .storeConnected object value :: rest) : s.Renders (.run t) s' f := by
  obtain ⟨shared, statements, executed, rfl⟩ := exec_of_run taken top rfl
  cases executed
  rcases follows.bodies with ⟨active, bodies⟩
  have inside := bodies.doing t
  rw [top] at inside
  generalize is : active t = now at inside
  cases inside.top with
  | idle inert => cases inert.top
  | @busy x _ _ _ _ _ under body here refused returns inert =>
      cases body with
      | store stores =>
          obtain ⟨client, found⟩ := follows.client_of_running here
          have stack : Function.update s.stack t ([] ++ rest) = Function.update s.stack t rest :=
            rfl
          refine renders_advance tracked follows taken bodies is here found stack ?_
            (fun other different base => ?_) ?_ (fun now changed => ?_)
          · rw [rewrite_run top, ThreadOp.rewrite, if_pos rfl]
            rfl
          · rw [rewrite_run top, ThreadOp.rewrite, if_neg different]
          · simp only [sights, top]
            rfl
          · subst under changed
            exact .busy .call (Function.update_self ..) refused returns inert

theorem renders_invoke (tracked : s.Tracked) (follows : s.Follows f)
    (taken : s.step (.run t) = some s') {handler : BoundHandler} {notification : Notification}
    (top : s.stack t = .invoke handler notification :: rest) : s.Renders (.run t) s' f := by
  obtain ⟨shared, statements, executed, rfl⟩ := exec_of_run taken top rfl
  cases executed
  rcases follows.bodies with ⟨active, bodies⟩
  have inside := bodies.doing t
  rw [top] at inside
  generalize is : active t = now at inside
  cases inside.top with
  | idle inert => cases inert.top
  | busy under body here refused returns inert =>
      cases body with
      | invoke =>
          obtain ⟨client, found⟩ := follows.client_of_running here
          refine renders_advance tracked follows taken bodies is here found rfl ?_
            (fun other different base => ?_) ?_ (fun now changed => ?_)
          · rw [rewrite_run top]
            rfl
          · rw [rewrite_run top]
            rfl
          · simp only [sights, top]
            rfl
          · subst under changed
            exact .idle (inert.append (by simp [ThreadOp.inBody]))

/-- Two steps of one client. -/
theorem renders_acts {first second : ClientAction BoundHandler}
    {between after : ClientSystem BoundHandler} (taken : (f object).anyStep first = some between)
    (later : between.anyStep second = some after)
    (same : ((f object).shows first ++ between.shows second).map (ClientEvent.sight object) =
      s.sights action)
    (follows : s'.Follows (Function.update f object after)) : s.Renders action s' f := by
  have one := Clients.step_of_anyStep taken
  have moves : (Function.update f object between object).anyStep second = some after := by
    rwa [Function.update_self]
  have two := Clients.step_of_anyStep moves
  rw [Function.update_idem] at two
  refine ⟨[(object, first), (object, second)], _,
    Transition.run_cons.mpr ⟨_, one, Transition.run_singleton.mpr two⟩, ?_, follows⟩
  rw [observed_cons one, observed_singleton two, ← same, List.map_append]
  simp only [Clients.shows, Function.update_self]

theorem renders_copyHandler (tracked : s.Tracked) (follows : s.Follows f)
    (taken : s.step (.run t) = some s') {type : CallbackType} {notification : Notification}
    (top : s.stack t = .copyHandler object type notification :: rest) :
    s.Renders (.run t) s' f := by
  obtain ⟨shared, statements, executed, rfl⟩ := exec_of_run taken top rfl
  rcases follows.bodies with ⟨active, bodies⟩
  have inside := bodies.doing t
  rw [top] at inside
  generalize is : active t = now at inside
  cases inside.top with
  | idle inert => cases inert.top
  | @busy x trigger _ below _ _ under body here refused returns inert =>
      cases body with
      | copy =>
          obtain ⟨client, found⟩ := follows.client_of_running here
          obtain ⟨same, alive⟩ := follows.clients found
          have plain (other : ObjectId) (base : MqttClient BoundHandler) :
              s.rewrite other base (.run t) = base := by
            rw [rewrite_run top]
            rfl
          have shown : s.sights (.run t) =
              [.copied x.1 trigger.type (client.base.copyHandler trigger.type)] := by
            simp only [sights, top, found, Option.bind_some]
          subst under
          simp only [ThreadOp.exec, found, Option.bind_some] at executed
          cases copy : client.base.copyHandler trigger.type with
          | some handler =>
              rw [copy] at executed
              cases executed
              refine renders_advance tracked follows taken bodies is here found rfl
                (plain _ _).symm (fun other _ base => plain other base) ?_ (fun now changed => ?_)
              · rw [shown]
                rfl
              · subst changed
                refine .busy .found ?_ refused returns inert
                rw [Function.update_self]
                simp only [MqttClient.execute, copy, reduceCtorEq, ↓reduceIte]
          | none =>
              -- the body ends here, with nothing to invoke
              rw [copy] at executed
              cases executed
              let between := (f x.1).execute x.2
                ⟨trigger, [.copyHandler trigger.type, .invokeHandler], none⟩
                (.copyHandler trigger.type) [.invokeHandler]
              let after := between.execute x.2 ⟨trigger, [.invokeHandler], none⟩ .invokeHandler []
              have first : (f x.1).anyStep (.advance x.2) = some between :=
                ClientSystem.anyStep_advance here
              have left : between.running.lookup x.2 = some ⟨trigger, [.invokeHandler], none⟩ := by
                rw [ClientSystem.lookup_execute, if_pos rfl, if_neg (by simp), same]
                simp only [MqttClient.execute, copy]
              have second : between.anyStep (.advance x.2) = some after :=
                ClientSystem.anyStep_advance left
              have ended (other : Nat) : after.running.lookup other =
                  if other = x.2 then none else (f x.1).running.lookup other := by
                rw [ClientSystem.lookup_execute, if_pos rfl, ClientSystem.lookup_execute]
                split <;> rfl
              refine renders_acts first second ?_ (follows.move tracked taken found ?_ ?_
                (fun other _ => ⟨plain other, not_destroys (by simp)⟩)
                (((follows.valid _).anyStep first).anyStep second) ?_)
              · rw [ClientSystem.shows_advance here, ClientSystem.shows_advance left, shown, same]
                simp only [MqttClient.execute, copy]
                rfl
              · rw [plain, ← same]
                rfl
              · have kept : after.destroyed = (f x.1).destroyed := rfl
                have still : s.shared.client x.1 ≠ none := by simp [found]
                rw [kept, alive]
                exact iff_of_false (by simp) still
              · rw [running_update ended]
                refine ⟨_, bodies.replace (fun u other => bodies.apart other is) (.inr is) ?_⟩
                exact .idle (.cons rfl inert)

/-! ### Statements of the game thread -/

/-- The game thread is in no body, so it can turn to the client. -/
theorem idle_of_bodies {active : Thread n → Option (ObjectId × Nat)}
    (bodies : Bodies f.running s.stack active) (away : active .game = none)
    (running : (f object).client.stopping = false) : (f object).idle = true := by
  simp only [ClientSystem.idle, running, Bool.not_false, Bool.true_and, List.all_eq_true,
    decide_eq_true_eq]
  intro activation member refused
  obtain ⟨id, here⟩ := Table.mem_values_iff.mp member
  have here : f.running (object, id) = some activation := here
  obtain ⟨t, is⟩ := bodies.every here
  have doing := bodies.doing t
  generalize stack : s.stack t = whole at doing
  rw [is] at doing
  cases doing with
  | busy body found only =>
      cases found.symm.trans here
      cases only refused
      cases away.symm.trans is

theorem found_of_use (tracked : s.Tracked) (member : op ∈ s.stack t)
    (used : op.uses = some object) : ∃ client, s.shared.client object = some client :=
  Option.isSome_iff_exists.mp (live_iff.mp (tracked.alive.live member used))

/-- The game thread runs a statement of its own on a client. -/
theorem renders_own (act : ClientAction BoundHandler) (after : ClientSystem BoundHandler)
    (stopping : s.Stopping) (follows : s.Follows f)
    (taken : s.step (.run .game) = some s') (top : s.stack .game = op :: rest)
    (used : op.uses = some object) (outside : op.inBody = false) (consumer : op.producing = false)
    (executed : op.exec s.shared = some (shared, []))
    (elsewhere : ∀ other, other ≠ object → ∀ base, op.rewrite other base = base)
    (acts : ∀ base, (f object).client = base → (f object).idle = true →
      (f object).anyStep act = some after ∧ after.client = op.rewrite object base ∧
        after.running = (f object).running ∧ after.destroyed = (f object).destroyed)
    (shows : ((f object).shows act).map (ClientEvent.sight object) = s.sights (.run .game)) :
    s.Renders (.run .game) s' f := by
  have tracked := stopping.tracked
  have member : op ∈ s.stack .game := top ▸ List.mem_cons_self
  obtain ⟨client, found⟩ := found_of_use tracked member used
  obtain ⟨same, alive⟩ := follows.clients found
  rcases follows.bodies with ⟨active, bodies⟩
  have doing := bodies.doing .game
  rw [top] at doing
  obtain ⟨away, inert⟩ := doing.idle_of_top outside fun mutex => by
    constructor <;> rintro rfl <;> cases consumer
  have working : (f object).client.stopping = false := by
    rw [same]
    refine stopping.working member used ?_ consumer found
    rintro rfl
    cases executed
  obtain ⟨stepped, client', runs, lives⟩ := acts _ same (idle_of_bodies bodies away working)
  have left : s'.stack = Function.update s.stack .game rest := by
    have executes : op.executes = true := by
      rw [← ThreadOp.exec_isSome, executed]
      rfl
    obtain ⟨_, _, executed', rfl⟩ := exec_of_run taken top executes
    cases executed.symm.trans executed'
    rfl
  refine renders_act stepped shows (follows.move tracked taken found ?_ ?_
    (fun other different => ⟨fun base => ?_, not_destroys (by simp)⟩)
    ((follows.valid _).anyStep stepped) ?_)
  · rw [client', rewrite_run top]
  · obtain ⟨client'', still⟩ := persists tracked taken found (not_destroys (by simp))
    rw [lives, alive, still]
    simp
  · rw [rewrite_run top]
    exact elsewhere other different base
  · rw [running_same runs, left]
    refine ⟨active, bodies.restack ?_⟩
    rw [away]
    refine .idle (inert.tail ?_)
    rintro target rfl
    cases executed

theorem renders_storeHandler (stopping : s.Stopping) (follows : s.Follows f)
    (taken : s.step (.run t) = some s') {type : CallbackType} {handler : BoundHandler}
    (top : s.stack t = .storeHandler object type handler :: rest) :
    s.Renders (.run t) s' f := by
  cases game_of_producing stopping.tracked.sound top rfl
  refine renders_own (.setHandler type (some handler)) { f object with
      client := (f object).client.setHandler type (some handler)
      history := .installed type (some handler) :: (f object).history }
    stopping follows taken top rfl rfl rfl rfl
    (fun other different base => if_neg different) (fun base same idle => ⟨?_, ?_, rfl, rfl⟩) ?_
  · simp only [ClientSystem.anyStep, ClientSystem.step, idle, ↓reduceIte]
  · rw [ThreadOp.rewrite, if_pos rfl, same]
  · simp only [sights, top]
    rfl

theorem renders_setStopping (stopping : s.Stopping) (follows : s.Follows f)
    (taken : s.step (.run t) = some s') (top : s.stack t = .setStopping object :: rest) :
    s.Renders (.run t) s' f := by
  cases game_of_producing stopping.tracked.sound top rfl
  refine renders_own .stop { f object with
      client := { (f object).client with stopping := true }
      history := .stopped :: (f object).history }
    stopping follows taken top rfl rfl rfl rfl
    (fun other different base => if_neg different) (fun base same idle => ⟨?_, ?_, rfl, rfl⟩) ?_
  · simp only [ClientSystem.anyStep, ClientSystem.step, idle, ↓reduceIte]
  · rw [ThreadOp.rewrite, if_pos rfl, same]
  · simp only [sights, top]
    rfl

/-! ### Bodies begin -/

/-- No activation has the number of the next. -/
theorem fresh_of_valid {active : Thread n → Option (ObjectId × Nat)}
    (bodies : Bodies f.running s.stack active) (valid : (f object).Valid) (u : Thread n) :
    active u ≠ some (object, (f object).history.length) := by
  intro is
  have doing := bodies.doing u
  generalize s.stack u = whole at doing
  rw [is] at doing
  cases doing with
  | busy body here =>
      have began := (mem_eventsOf.mp (valid.running here).began_mem).1
      exact Nat.lt_irrefl _ (valid.fresh _ began _ rfl)

/-- A thread begins a body of the client's. -/
theorem renders_begins {act : ClientAction BoundHandler} {trigger : Trigger}
    {pending : List Token} (tracked : s.Tracked) (follows : s.Follows f)
    (taken : s.step action = some s') (found : s.shared.client object = some client)
    (unwritten : ∀ other base, s.rewrite other base action = base)
    (kept : ∀ other, ¬ s.Destroys action other)
    (enters : (f object).anyStep act = some ({ f object with pending }.enter trigger))
    (shows : ((f object).shows act).map (ClientEvent.sight object) = s.sights action)
    {active : Thread n → Option (ObjectId × Nat)} (bodies : Bodies f.running s.stack active)
    (away : active t = none) {ops below : List ThreadOp}
    (body : Body object trigger ops trigger.body none)
    (stack : s'.stack = Function.update s.stack t (ops ++ below))
    (refused : trigger = .disconnectThrew → t = .game)
    (returns : t ≠ .game → .callbackReturn object ∈ below) (inert : Inert below) :
    s.Renders action s' f := by
  obtain ⟨same, alive⟩ := follows.clients found
  obtain ⟨client', still⟩ := persists tracked taken found (kept object)
  refine renders_act enters shows (follows.move tracked taken found ?_ ?_
    (fun other _ => ⟨unwritten other, kept other⟩) ((follows.valid _).anyStep enters) ?_)
  · rw [unwritten]
    exact same
  · rw [show (ClientSystem.enter trigger { f object with pending }).destroyed = false from alive,
      still]
    simp
  · have lookup (other : Nat) :
        (ClientSystem.enter trigger { f object with pending }).running.lookup other =
          if other = (f object).history.length then some ⟨trigger, trigger.body, none⟩
          else (f object).running.lookup other :=
      Table.lookup_insert_iff ..
    rw [running_update lookup, stack]
    refine ⟨_, bodies.replace (fun u is => ?_) (.inl away) ?_⟩
    · exact absurd is (fresh_of_valid bodies (follows.valid object) u)
    · exact .busy body (Function.update_self ..) refused returns inert

/-- A thread that is outside the module, or in Paho, is in no body. -/
theorem idle_of_away {now : Option (ObjectId × Nat)} (doing : Doing f.running t now (s.stack t))
    (away : s.away t = true) : now = none ∧ Inert (s.stack t) := by
  unfold Threads.away at away
  cases top : s.stack t with
  | nil =>
      rw [top] at doing
      exact ⟨doing.idle_of_nil, .nil⟩
  | cons op rest =>
      rw [top] at doing away
      cases op with
      | foreign | paho => exact doing.idle_of_top rfl (by simp)
      | _ => cases away

theorem renders_callback (tracked : s.Tracked) (follows : s.Follows f) {callback : PahoCallback}
    (ready : s.receptive t = true) (known : (s.shared.client object).isSome = true)
    (taken : s.step (.callback t object callback) = some (s.push t (callback.statements object))) :
    s.Renders (.callback t object callback) (s.push t (callback.statements object)) f := by
  obtain ⟨client, found⟩ := Option.isSome_iff_exists.mp known
  rcases follows.bodies with ⟨active, bodies⟩
  obtain ⟨away, inert⟩ := idle_of_away (bodies.doing t) (away_of_receptive ready)
  obtain ⟨pending, enters⟩ := ClientSystem.deliver_eq (follows.clients found).2 callback
  obtain ⟨ops, whole, body⟩ := callback.body_start object
  refine renders_begins tracked follows taken found (fun _ _ => rfl)
    (fun _ => not_destroys (by simp)) enters rfl bodies away body ?_ (by simp)
    (fun _ => List.mem_cons_self) (.cons rfl inert)
  rw [push_stack, whole, List.append_assoc, List.singleton_append]

/-- The `catch` of a refused disconnect. -/
theorem renders_refused (stopping : s.Stopping) (follows : s.Follows f)
    (taken : s.step (.ret .game) = some s') {notification : Notification}
    (top : s.stack .game = .paho object .disconnect ::
      .callHandler object .disconnected notification :: rest)
    (stack : s'.stack = Function.update s.stack .game
      (.callHandler object .disconnected notification :: rest)) (inert : Inert rest) :
    s.Renders (.ret .game) s' f := by
  have tracked := stopping.tracked
  have member : .paho object .disconnect ∈ s.stack .game := top ▸ List.mem_cons_self
  obtain ⟨client, found⟩ := found_of_use tracked member rfl
  obtain ⟨same, alive⟩ := follows.clients found
  rcases follows.bodies with ⟨active, bodies⟩
  have doing := bodies.doing .game
  rw [top] at doing
  have away := (doing.idle_of_top rfl (by simp)).1
  have working : (f object).client.stopping = false := by
    rw [same]
    exact stopping.working member rfl (by simp) rfl found
  have idle := idle_of_bodies bodies away working
  have enters : (f object).anyStep (.disconnect 0 (some ⟨0, ""⟩)) =
      some ({ f object with pending := (f object).pending }.enter .disconnectThrew) := by
    simp only [ClientSystem.anyStep, ClientSystem.step, idle, ↓reduceIte]
  have body : Body object .disconnectThrew [.callHandler object .disconnected notification]
      Trigger.disconnectThrew.body none := .call
  refine renders_begins tracked follows taken found (fun _ _ => rfl)
    (fun _ => not_destroys_ret top (by simp)) enters ?_ bodies away body stack (fun _ => rfl)
    (fun other => absurd rfl other) inert
  simp only [sights, top]
  rfl

/-- The destructor ends. -/
theorem renders_destroy (stopping : s.Stopping) (follows : s.Follows f)
    (taken : s.step (.ret .game) = some s') (top : s.stack .game = .paho object .destroy :: rest)
    (quiet : s.quiet object) (stack : s'.stack = Function.update s.stack .game rest) :
    s.Renders (.ret .game) s' f := by
  have tracked := stopping.tracked
  have member : .paho object .destroy ∈ s.stack .game := top ▸ List.mem_cons_self
  obtain ⟨client, found⟩ := found_of_use tracked member rfl
  obtain ⟨same, alive⟩ := follows.clients found
  rcases follows.bodies with ⟨active, bodies⟩
  have doing := bodies.doing .game
  rw [top] at doing
  obtain ⟨away, inert⟩ := doing.idle_of_top rfl (by simp)
  have ended : (f object).client.stopping = true := by
    rw [same]
    exact stopping.ended top found
  -- a worker in a body of the client's has not returned from the callback
  have none : (f object).running.keys = [] := by
    refine List.eq_nil_iff_forall_not_mem.mpr fun id key => ?_
    obtain ⟨activation, here⟩ := Option.isSome_iff_exists.mp (AList.lookup_isSome.mpr key)
    have here : f.running (object, id) = some activation := here
    obtain ⟨u, is⟩ := bodies.every here
    have there := bodies.doing u
    generalize whole : s.stack u = stack at there
    rw [is] at there
    cases there with
    | @busy _ _ _ below _ _ body found refused returns inert =>
        cases u with
        | game => cases away.symm.trans is
        | worker i =>
            refine quiet i ?_
            rw [whole]
            exact List.mem_append_right _ (returns (by simp))
  let after : ClientSystem BoundHandler :=
    { f object with destroyed := true, history := .destroyed :: (f object).history }
  have destroys : (f object).anyStep .destroy = some after := by
    simp only [ClientSystem.anyStep, ClientSystem.step, ended, none, alive, and_self, ↓reduceIte]
    rfl
  have gone : s'.shared.client object = Option.none := by
    rw [← Option.not_isSome_iff_eq_none, ← live_iff]
    exact (tracked.freed top taken).2
  refine renders_act destroys ?_ (follows.move tracked taken found same (iff_of_true rfl gone)
    (fun other different => ⟨fun _ => rfl, not_destroys_ret top ?_⟩)
    ((follows.valid _).anyStep destroys) ?_)
  · simp only [sights, top]
    rfl
  · rintro ⟨⟩
    exact different rfl
  · have runs : after.running = (f object).running := rfl
    rw [running_same runs, stack]
    refine ⟨active, bodies.restack ?_⟩
    rw [away]
    exact .idle (inert.tail (by simp))

/-- A step that is not the thread's own leaves it idle. -/
theorem renders_still (tracked : s.Tracked) (follows : s.Follows f)
    (taken : s.step action = some s') (quiet : s.sights action = [])
    (unwritten : ∀ other base, s.rewrite other base action = base)
    (kept : ∀ other, ¬ s.Destroys action other) {above : List ThreadOp}
    (stack : s'.stack = Function.update s.stack t above)
    (idle : ∀ {now}, Doing f.running t now (s.stack t) → now = none ∧ Inert above) :
    s.Renders action s' f := by
  refine (follows.stutter tracked taken unwritten kept ?_).silent quiet
  rcases follows.bodies with ⟨active, bodies⟩
  obtain ⟨away, inert⟩ := idle (bodies.doing t)
  rw [stack]
  exact ⟨active, bodies.restack (away ▸ .idle inert)⟩

theorem renders_ret (stopping : s.Stopping) (follows : s.Follows f)
    (taken : s.step (.ret t) = some s') : s.Renders (.ret t) s' f := by
  have tracked := stopping.tracked
  obtain ⟨op, rest, top, ends⟩ := ret_cases taken
  have stack : s'.stack = Function.update s.stack t rest := by
    rcases ends with ⟨_, _, rfl⟩ | ⟨_, _, _, rfl⟩ <;> rfl
  cases op with
  | foreign =>
      refine renders_still tracked follows taken (by simp only [sights, top]) (fun _ _ => rfl)
        (fun _ => not_destroys_ret top (by simp)) stack fun doing => ?_
      rw [top] at doing
      obtain ⟨away, inert⟩ := doing.idle_of_top rfl (by simp)
      exact ⟨away, inert.tail (by simp)⟩
  | paho object operation =>
      cases game_of_producing tracked.sound top rfl
      rcases follows.bodies with ⟨active, bodies⟩
      have doing := bodies.doing .game
      rw [top] at doing
      obtain ⟨_, inert⟩ := doing.idle_of_top rfl (by simp)
      cases inert with
      | refused inert => exact renders_refused stopping follows taken top stack inert
      | cons plain inert =>
          by_cases destroys : operation = .destroy
          · subst destroys
            rcases ends with ⟨owns, _⟩ | ⟨_, ⟨⟩, quiet, _⟩
            · cases owns
            · exact renders_destroy stopping follows taken top quiet stack
          · refine renders_still tracked follows taken ?_ (fun _ _ => rfl)
              (fun _ => not_destroys_ret top ?_) stack fun doing => ?_
            · simp only [sights, top]
              cases operation with
              | destroy => exact absurd rfl destroys
              | disconnect =>
                  cases inert with
                  | nil => rfl
                  | refused => rfl
                  | @cons below _ outside =>
                      cases below with
                      | callHandler => cases outside
                      | _ => rfl
              | _ => rfl
            · rintro ⟨⟩
              exact destroys rfl
            · rw [top] at doing
              exact ⟨(doing.idle_of_top rfl (by simp)).1, inert⟩
  | _ =>
      cases steps taken with
      | ret top' | pahoRet top' => cases top.symm.trans top'

end Run

/-- **Every step is one of the clients', two of one client's, or none.** -/
theorem renders_step (stopping : s.Stopping) (follows : s.Follows f)
    (taken : s.step action = some s') : s.Renders action s' f := by
  have tracked := stopping.tracked
  have taken' := taken
  cases steps taken' with
  | lock top => exact renders_lock tracked follows taken top rfl
  | unlock top => exact renders_unlock tracked follows taken top rfl
  | ret | pahoRet => exact renders_ret stopping follows taken
  | @exec t op shared statements rest top executed =>
      cases op with
      | storeConnected => exact renders_storeConnected tracked follows taken top
      | callHandler => exact renders_callHandler tracked follows taken top
      | copyHandler => exact renders_copyHandler tracked follows taken top
      | invoke => exact renders_invoke tracked follows taken top
      | storeHandler => exact renders_storeHandler stopping follows taken top
      | setStopping => exact renders_setStopping stopping follows taken top
      | _ => exact renders_outside tracked follows taken top executed rfl rfl rfl
  | native callable invoked fresh =>
      refine renders_still (t := .game) tracked follows taken rfl (fun _ _ => rfl)
        (fun _ => not_destroys (by simp)) (enterNative_stack ..) fun doing => ?_
      obtain ⟨idle, inert⟩ := idle_of_away doing (away_of_callable callable)
      exact ⟨idle, inert.native (Native.returns invoked)⟩
  | @entered call callable =>
      refine renders_still (t := .game) tracked follows taken rfl (fun _ _ => rfl)
        (fun _ => not_destroys (by simp)) (push_stack ..) fun doing => ?_
      obtain ⟨idle, inert⟩ := idle_of_away doing (away_of_callable callable)
      exact ⟨idle, inert.append (inBody_body call)⟩
  | callback receptive known => exact renders_callback tracked follows receptive known taken
  | @dispatch t call away =>
      refine renders_still (t := t) tracked follows taken rfl (fun _ _ => rfl)
        (fun _ => not_destroys (by simp)) (push_stack ..) fun doing => ?_
      obtain ⟨idle, inert⟩ := idle_of_away doing away
      exact ⟨idle, .cons rfl inert⟩

/-- What a run shows of the clients, a run of the clients shows. -/
theorem run_follows {actions : List (ThreadAction n)}
    (ran : Transition.run Threads.step .initial actions = some s) :
    ∃ acts f, Transition.run Clients.step Clients.initial acts = some f ∧
      observed Clients.step Clients.shows Clients.initial acts =
        observed Threads.step Threads.sights (.initial : Threads P n) actions ∧
      s.Follows f := by
  have simulates : Simulates (Threads.step (P := P) (n := n)) Threads.sights Clients.step
      Clients.shows (fun _ => True) fun s f => s.Stopping ∧ s.Follows f := by
    intro s f action s' _ related taken
    rcases related with ⟨stopping, follows⟩
    obtain ⟨acts, g, matched, same, next⟩ := renders_step stopping follows taken
    exact ⟨acts, g, matched, same, step_stopping taken stopping, next⟩
  obtain ⟨acts, f, matched, same, _, follows⟩ := simulates.run
    ⟨stopping_initial, follows_initial⟩ (fun _ _ => True.intro) ran
  exact ⟨acts, f, matched, same, follows⟩

end Threads

/-- **Every client of the module is a `ClientSystem`.**  Whatever an interleaving of the game
thread and any number of workers does to the clients is a run of the clients side by side that
shows the same in the same order.  What happens to one object is a run of a `ClientSystem`, which
has the flag, `m_stopping` and the handlers of the client as long as it is there, and whose
destructor has returned once it is gone. -/
theorem threads_refine_clients {P : PahoOptions} {n : Nat} {actions : List (ThreadAction n)}
    {s : Threads P n} (ran : Transition.run Threads.step .initial actions = some s) :
    ∃ acts f, Transition.run Clients.step Clients.initial acts = some f ∧
      observed Clients.step Clients.shows Clients.initial acts =
        observed Threads.step Threads.sights (.initial : Threads P n) actions ∧
      ∀ object,
        Transition.run ClientSystem.anyStep .initial (Family.ofMember object acts) =
          some (f object) ∧
        (∀ client, s.shared.client object = some client →
          (f object).client = client.base ∧ (f object).destroyed = false) ∧
        (object ∈ s.shared.constructed → s.shared.client object = none →
          (f object).destroyed = true) ∧
        (object ∉ s.shared.constructed → f object = .initial) := by
  obtain ⟨acts, f, matched, same, follows⟩ := Threads.run_follows ran
  refine ⟨acts, f, matched, same, fun object => ⟨?_, ?_, ?_, ?_⟩⟩
  · exact Family.run_member matched object
  · exact fun client found => follows.clients found
  · exact fun known absent => follows.gone known absent
  · exact fun unknown => follows.unborn unknown

/-- The client is destroyed while a worker is in a callback of it, which then finds nothing to
invoke. -/
theorem threads_refine_clients_destroyed : ∃ acts f,
    Transition.run Clients.step Clients.initial acts = some f ∧
      (observed Clients.step Clients.shows Clients.initial acts).drop 4 =
        [.began 7 (.paho (.message [] [])), .stopped 7, .copied 7 .message none,
          .destroyed 7] ∧
      Transition.run ClientSystem.anyStep .initial (Family.ofMember 7 acts) = some (f 7) ∧
      (f 7).destroyed = true := by
  let actions : List (ThreadAction 1) :=
    destroyedInUse ++ List.replicate 4 (.run loneWorker) ++ [.ret .game]
  have state : (Transition.run Threads.step (.initial : Threads .plain 1) actions).map
      (fun s => decide (7 ∈ s.shared.constructed ∧ s.shared.client 7 = none)) = some true := by
    decide +kernel
  have seen : (observed Threads.step Threads.sights (.initial : Threads .plain 1) actions).drop 4 =
      [.began 7 (.paho (.message [] [])), .stopped 7, .copied 7 .message none,
        .destroyed 7] := by
    decide +kernel
  obtain ⟨s, ran, gone⟩ := Option.map_eq_some_iff.mp state
  obtain ⟨known, absent⟩ := of_decide_eq_true gone
  obtain ⟨acts, f, matched, same, each⟩ := threads_refine_clients ran
  obtain ⟨own, _, ended, _⟩ := each 7
  exact ⟨acts, f, matched, same ▸ seen, own, ended known absent⟩

end AmxxMqtt
