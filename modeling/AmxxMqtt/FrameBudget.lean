import AmxxMqtt.Batch

/-!
# The frame budget

While nothing stops the dispatcher, a call of `ProcessPendingCallbacks` removes exactly the first
`min n 256` of the `n` events queued when it began, whatever is queued meanwhile, and an event
moves 256 places forward with every call.

`calm` takes the steps of one call in which no stop is run and no other call of
`ProcessPendingCallbacks` begins.  `Serving` relates the loop's counter to what was taken so far.
-/

namespace AmxxMqtt

variable {P : PahoOptions}

/-- A stop, or the beginning of a call of `ProcessPendingCallbacks`. -/
def GameOp.interrupts : GameOp → Bool
  | .stopCallbackDispatcher | .processPendingCallbacks => true
  | _ => false

/-- The loop of a call. -/
def GameOp.drains : GameOp → Bool
  | .drain _ => true
  | _ => false

namespace World

variable {w₀ w t : World P} {above rest : List GameOp} {remaining : Nat}

/-- A step of the call above `rest` that runs no stop and begins no other call. -/
def calm (rest : List GameOp) (w : World P) : Action → Option (World P)
  | .tick => if w.stack.head?.any GameOp.interrupts then none else w.during rest .tick
  | action => w.during rest action

theorem during_of_calm {action : Action} (taken : w.calm rest action = some t) :
    w.during rest action = some t ∧
      ∀ op below, action = .tick → w.stack = op :: below → op.interrupts = false := by
  cases action with
  | tick =>
      simp only [calm] at taken
      split at taken
      · cases taken
      · rename_i quiet
        refine ⟨taken, fun op below _ top => ?_⟩
        simpa only [top, List.head?_cons, Option.any_some, Bool.not_eq_true] using quiet
  | call | ret | callback | dispatch =>
      exact ⟨taken, fun _ _ ticks => by cases ticks⟩

/-- A call that has returned takes no step. -/
theorem during_returned {action : Action} (returned : w.stack = rest) :
    w.during rest action = none := by
  simp only [during, returned, Nat.lt_irrefl, ↓reduceIte]

/-! ## What a step adds at the queue -/

theorem gateLog_record (producer : Producer) (source : Option ObjectId) (call : DispatcherCall)
    (w : World P) : ∃ newer, gateLog (w.record producer source call).history =
      newer ++ gateLog w.history ∧ Gate.OnlyOffers newer := by
  cases accepting : w.globals.queue.acceptingCallbacks <;>
    refine ⟨[_], by simp only [record, accepting]; rfl, ?_⟩ <;> intro event member <;>
    rw [List.mem_singleton.mp member]
  · exact ⟨_, .inr rfl⟩
  · exact ⟨_, .inl rfl⟩

theorem gateLog_offerAll (producer : Producer) (source : Option ObjectId)
    (calls : List DispatcherCall) (w : World P) :
    ∃ newer, gateLog (w.offerAll producer source calls).history = newer ++ gateLog w.history ∧
      Gate.OnlyOffers newer := by
  induction calls generalizing w with
  | nil => exact ⟨[], rfl, by simp [Gate.OnlyOffers]⟩
  | cons call calls ih =>
      obtain ⟨newer, logged, offers⟩ := ih (w.offer producer source call)
      obtain ⟨first, one, offer⟩ := gateLog_record producer source call { w with
        globals := { w.globals with queue := w.globals.queue.enqueueCallback call.event } }
      refine ⟨newer ++ first, ?_, fun event member => ?_⟩
      · rw [List.append_assoc]
        exact logged.trans (congrArg (newer ++ ·) one)
      · exact (List.mem_append.mp member).elim (offers event) (offer event)

theorem gateLog_recordAll (dispatches : List (ObjectId × DispatcherCall)) (w : World P) :
    ∃ newer, gateLog (w.recordAll dispatches).history = newer ++ gateLog w.history ∧
      Gate.OnlyOffers newer := by
  induction dispatches generalizing w with
  | nil => exact ⟨[], rfl, by simp [Gate.OnlyOffers]⟩
  | cons dispatch dispatches ih =>
      obtain ⟨newer, logged, offers⟩ := ih (w.record .gameThread (some dispatch.1) dispatch.2)
      obtain ⟨first, one, offer⟩ := gateLog_record .gameThread (some dispatch.1) dispatch.2 w
      refine ⟨newer ++ first, ?_, fun event member => ?_⟩
      · rw [List.append_assoc]
        exact logged.trans (congrArg (newer ++ ·) one)
      · exact (List.mem_append.mp member).elim (offers event) (offer event)

/-- What a step adds at the queue: offers or a start, a stop, or a take by a loop. -/
theorem step_gates {action : Action} (stepped : w.step action = some t) :
    ∃ newer, gateLog t.history = newer ++ gateLog w.history ∧
      ((.closed ∉ newer ∧ Gate.taken newer = []) ∨
        (action = .tick ∧ ∃ below, w.stack = .stopCallbackDispatcher :: below) ∨
        action = .tick ∧ ∃ left below event offer, w.stack = .drain (left + 1) :: below ∧
          newer = [.taken offer] ∧
            t.stack = .executeCallback event offer :: .drain left :: below) := by
  cases World.steps stepped with
  | @native native host args r outside invoked admitted =>
      obtain ⟨newer, logged, offers⟩ := gateLog_recordAll (r.effects.filterMap Effect.dispatch)
        { w with
          globals := r.globals
          forwards := r.effects.foldl applyEffect w.forwards
          stack := r.removed.toList.map .destruct ++ w.stack
          history := .native (r.asCall native host (frame args)) :: w.history }
      exact ⟨newer, logged, .inl ⟨offers.unclosed, offers.taken_eq_nil⟩⟩
  | callback made =>
      obtain ⟨newer, logged, offers⟩ := gateLog_offerAll _ _ _ { w with globals := { w.globals with
        clients := received w.globals.clients _ _ } }
      exact ⟨newer, logged, .inl ⟨offers.unclosed, offers.taken_eq_nil⟩⟩
  | @dispatch worker call =>
      obtain ⟨newer, logged, offers⟩ := gateLog_offerAll (.worker worker) none [call] w
      exact ⟨newer, logged, .inl ⟨offers.unclosed, offers.taken_eq_nil⟩⟩
  | stop top => exact ⟨[.closed], rfl, .inr (.inl ⟨rfl, _, top⟩)⟩
  | take top popped front =>
      exact ⟨[.taken _], rfl, .inr (.inr ⟨rfl, _, _, _, _, top, rfl, rfl⟩)⟩
  | start => exact ⟨[.opened], rfl, .inl ⟨by simp, rfl⟩⟩
  | entered | ret | hook | unhook | process | drained | resetClients | destruct | resetOptions
  | execute | discard => exact ⟨[], rfl, .inl ⟨by simp, rfl⟩⟩

/-! ## What a step does above the loop of a call -/

theorem drains_of_destruct {clients : List AmxxMqttClient} :
    ∀ op ∈ clients.map GameOp.destruct, op.drains = false := by
  intro op member
  obtain ⟨client, _, rfl⟩ := List.mem_map.mp member
  rfl

/-- A step pushes on the stack, or replaces its top; only a loop, or the beginning of a call,
leaves a loop behind. -/
theorem step_stack {action : Action} (stepped : w.step action = some t) :
    (action ≠ .tick ∧ ∃ pushed, t.stack = pushed ++ w.stack ∧ ∀ op ∈ pushed, op.drains = false) ∨
      ∃ op below pushed, w.stack = op :: below ∧ t.stack = pushed ++ below ∧
        (action = .tick ∨ op = .foreign) ∧
        (op.drains = false → op.interrupts = false → ∀ other ∈ pushed, other.drains = false) := by
  cases World.steps stepped with
  | native outside invoked admitted =>
      exact .inl ⟨by simp, _, returned_stack, drains_of_destruct⟩
  | @entered call outside plain =>
      refine .inl ⟨by simp, call.body, rfl, fun op member => ?_⟩
      cases call <;> simp only [GameCall.body, List.mem_cons, List.not_mem_nil, or_false] at member
      all_goals rcases member with rfl | rfl | rfl | rfl <;> rfl
  | callback made => exact .inl ⟨by simp, [], receive_stack, by simp⟩
  | dispatch => exact .inl ⟨by simp, [], rfl, by simp⟩
  | ret top => exact .inr ⟨_, _, [], top, rfl, .inr rfl, by simp⟩
  | resetClients top =>
      exact .inr ⟨_, _, _, top, rfl, .inl rfl, fun _ _ => drains_of_destruct⟩
  | process top => exact .inr ⟨_, _, [_], top, rfl, .inl rfl, fun _ quiet => by cases quiet⟩
  | take top popped front =>
      exact .inr ⟨_, _, [_, _], top, rfl, .inl rfl, fun plain => by cases plain⟩
  | execute top found =>
      refine .inr ⟨_, _, [.foreign], top, rfl, .inl rfl, fun _ _ other member => ?_⟩
      rw [List.mem_singleton.mp member]
      rfl
  | start top | stop top | destruct top | resetOptions top | hook top | unhook top
  | drained top ended | discard top found =>
      exact .inr ⟨_, _, [], top, rfl, .inl rfl, by simp⟩

/-- What a calm step of a call does, whose loop has `remaining` to go. -/
inductive Turn (rest : List GameOp) (remaining : Nat) (w t : World P) : Prop
  | inside {above : List GameOp} {newer : List (Gate.Event Offer)}
      (stack : t.stack = above ++ .drain remaining :: rest)
      (plain : ∀ op ∈ above, op.drains = false)
      (gates : gateLog t.history = newer ++ gateLog w.history)
      (unclosed : .closed ∉ newer) (untaken : Gate.taken newer = [])
  | took {left : Nat} {event : CallbackEvent} {offer : Offer} (counted : remaining = left + 1)
      (stack : t.stack = .executeCallback event offer :: .drain left :: rest)
      (gates : gateLog t.history = .taken offer :: gateLog w.history)
  | returned (stack : t.stack = rest) (same : t.history = w.history)
      (queue : t.globals.queue = w.globals.queue) (provenance : t.provenance = w.provenance)
      (ended : remaining = 0 ∨ w.globals.queue.takeFront = none)

theorem turn {action : Action} (stepped : w.step action = some t)
    (quiet : ∀ op below, action = .tick → w.stack = op :: below → op.interrupts = false)
    (here : w.stack = above ++ .drain remaining :: rest)
    (plain : ∀ op ∈ above, op.drains = false) : Turn rest remaining w t := by
  obtain ⟨newer, gates, kinds⟩ := step_gates stepped
  rcases step_stack stepped with ⟨silent, pushed, after, pushes⟩ |
    ⟨op, below, pushed, top, after, ticks, pushes⟩
  · obtain ⟨unclosed, untaken⟩ := kinds.resolve_right fun both =>
      both.elim (fun stops => silent stops.1) fun takes => silent takes.1
    rw [here, ← List.append_assoc] at after
    exact .inside after (fun op member => (List.mem_append.mp member).elim (pushes op) (plain op))
      gates unclosed untaken
  cases above with
  | cons first above =>
      rw [List.cons_append] at here
      obtain ⟨rfl, rfl⟩ := List.cons.inj (here.symm.trans top)
      have drains : first.drains = false := plain first List.mem_cons_self
      rw [← List.append_assoc] at after
      have pushed_plain : ∀ other ∈ pushed, other.drains = false := by
        rcases ticks with ticks | rfl
        · exact pushes drains (quiet _ _ ticks top)
        · exact pushes rfl rfl
      refine .inside after (fun op member => (List.mem_append.mp member).elim (pushed_plain op)
        fun deeper => plain op (List.mem_cons_of_mem _ deeper)) gates ?_ ?_
      all_goals
        rcases kinds with kinds | ⟨ticks, below, stops⟩ | ⟨_, left, below, event, offer, takes, _⟩
        · first | exact kinds.1 | exact kinds.2
        · cases quiet _ _ ticks stops
        · cases (List.cons.inj (top.symm.trans takes)).1 ▸ drains
  | nil =>
      have ticking : action = .tick := by
        refine ticks.resolve_right fun foreign => ?_
        cases foreign ▸ (List.cons.inj (top.symm.trans here)).1
      subst ticking
      cases World.steps stepped with
      | drained other ended =>
          cases other.symm.trans here
          exact .returned rfl rfl rfl rfl ended
      | take other popped front =>
          cases other.symm.trans here
          exact .took rfl rfl rfl
      | start other | stop other | resetClients other | destruct other | resetOptions other
      | hook other | unhook other | process other | execute other | discard other =>
          cases other.symm.trans here

/-! ## One call -/

variable {u : World P}

theorem gatesSince_of_append {newer : List (Gate.Event Offer)} (later : w₀.history <:+ w.history)
    (stepped : w.history <:+ t.history)
    (gates : gateLog t.history = newer ++ gateLog w.history) :
    gatesSince w₀ t = newer ++ gatesSince w₀ w := by
  refine (List.append_left_inj (gateLog w₀.history)).mp ?_
  rw [← gateLog_eq_gatesSince (later.trans stepped), gates, List.append_assoc,
    ← gateLog_eq_gatesSince later]

/-- No stop was run since the earlier world. -/
structure Unstopped (w₀ w : World P) : Prop where
  later : w₀.history <:+ w.history
  unclosed : .closed ∉ gatesSince w₀ w

namespace Unstopped

theorem refl (w : World P) : Unstopped w w :=
  ⟨List.suffix_refl _, by simp [gatesSince]⟩

/-- What was queued at first and accepted since is what was taken since and is queued now. -/
theorem queue_append (unstopped : Unstopped w₀ w) (first : QueueValid w₀) (last : QueueValid w) :
    w₀.provenance ++ Gate.acceptedSince (gatesSince w₀ w) =
      Gate.taken (gatesSince w₀ w) ++ w.provenance := by
  have trace := last.trace
  rw [gateLog_eq_gatesSince unstopped.later] at trace
  exact first.trace.queue_append trace unstopped.unclosed

theorem accepting (unstopped : Unstopped w₀ w) (first : QueueValid w₀) (last : QueueValid w)
    (open₀ : w₀.globals.queue.acceptingCallbacks = true) :
    w.globals.queue.acceptingCallbacks = true := by
  have trace := last.trace
  have start := first.trace
  rw [gateLog_eq_gatesSince unstopped.later] at trace
  rw [open₀] at start
  exact trace.isOpen_of_unclosed start unstopped.unclosed

/-- A step that adds no stop. -/
theorem append {newer : List (Gate.Event Offer)} (unstopped : Unstopped w₀ w)
    (stepped : w.history <:+ t.history)
    (gates : gateLog t.history = newer ++ gateLog w.history) (unclosed : .closed ∉ newer) :
    Unstopped w₀ t ∧
      Gate.taken (gatesSince w₀ t) = Gate.taken (gatesSince w₀ w) ++ Gate.taken newer := by
  have since := gatesSince_of_append unstopped.later stepped gates
  refine ⟨⟨unstopped.later.trans stepped, ?_⟩, ?_⟩
  · rw [since, List.mem_append, not_or]
    exact ⟨unclosed, unstopped.unclosed⟩
  · rw [since, Gate.taken_append]

end Unstopped

/-- The loop of the call that began in `w₀` has this many of its batch left. -/
def Serving (w₀ : World P) (rest : List GameOp) (w : World P) : Prop :=
  ∃ above remaining, w.stack = above ++ .drain remaining :: rest ∧
    (∀ op ∈ above, op.drains = false) ∧
    remaining + (Gate.taken (gatesSince w₀ w)).length = w₀.globals.queue.batchSize

/-- The call has returned, having taken its whole batch. -/
def Served (w₀ : World P) (rest : List GameOp) (w : World P) : Prop :=
  w.stack = rest ∧ (Gate.taken (gatesSince w₀ w)).length = w₀.globals.queue.batchSize

theorem length_provenance (valid : QueueValid w) :
    w.provenance.length = w.globals.queue.pendingCallbacks.length := by
  rw [← valid.queued, List.length_map]

/-- An accepting queue has no front only when it is empty. -/
theorem provenance_eq_nil (valid : QueueValid w)
    (accepting : w.globals.queue.acceptingCallbacks = true)
    (empty : w.globals.queue.takeFront = none) : w.provenance = [] := by
  have queued := valid.queued
  cases pending : w.globals.queue.pendingCallbacks with
  | nil => exact List.map_eq_nil_iff.mp (queued.trans pending)
  | cons event events =>
      simp only [CallbackQueue.takeFront, accepting, ↓reduceIte, pending] at empty
      cases empty

/-- A calm step goes on with the batch, or returns with the whole batch taken. -/
theorem Serving.step {action : Action} (serving : Serving w₀ rest w) (unstopped : Unstopped w₀ w)
    (first : QueueValid w₀) (accepting : w₀.globals.queue.acceptingCallbacks = true)
    (valid : QueueValid w) (taken : w.calm rest action = some t) :
    Unstopped w₀ t ∧ (Serving w₀ rest t ∨ Served w₀ rest t) := by
  rcases serving with ⟨above, remaining, here, plain, counted⟩
  obtain ⟨during, quiet⟩ := during_of_calm taken
  have stepped := steps_of_during during
  have longer := step_history stepped
  cases turn stepped quiet here plain with
  | inside stack plain gates unclosed untaken =>
      obtain ⟨later, total⟩ := unstopped.append longer gates unclosed
      refine ⟨later, .inl ⟨_, remaining, stack, plain, ?_⟩⟩
      rw [total, untaken, List.append_nil, counted]
  | @took left event offer less stack gates =>
      have one : gateLog t.history = [.taken offer] ++ gateLog w.history := gates
      obtain ⟨later, total⟩ := unstopped.append longer one (by simp)
      refine ⟨later, .inl ⟨[.executeCallback event offer], left, stack, ?_, ?_⟩⟩
      · intro op member
        rw [List.mem_singleton.mp member]
        rfl
      · rw [total, List.length_append, ← counted, less]
        simp only [Gate.taken, List.nil_append, List.length_singleton]
        omega
  | returned stack same queue provenance ended =>
      have silent : gateLog t.history = [] ++ gateLog w.history := by rw [same, List.nil_append]
      obtain ⟨later, total⟩ := unstopped.append longer silent (by simp)
      refine ⟨later, .inr ⟨stack, ?_⟩⟩
      rw [total, Gate.taken, List.append_nil]
      rcases ended with none | empty
      · rw [none] at counted
        omega
      · -- the queue ran empty, so everything queued at first was taken
        have nothing := provenance_eq_nil valid (unstopped.accepting first valid accepting) empty
        have split := congrArg List.length (unstopped.queue_append first valid)
        rw [nothing, List.append_nil, List.length_append, length_provenance first] at split
        have batch : w₀.globals.queue.batchSize ≤ w₀.globals.queue.pendingCallbacks.length :=
          Nat.min_le_left _ _
        omega

/-! ## A whole call -/

/-- A whole call of `ProcessPendingCallbacks` during which nothing stops the dispatcher and no
other call begins. -/
inductive Frame (w u : World P) : Prop
  | mk {rest : List GameOp} {begun : World P} {actions : List Action}
      (top : w.stack = .processPendingCallbacks :: rest) (began : w.step .tick = some begun)
      (ran : Transition.run (calm rest) begun actions = some u) (returned : u.stack = rest)

theorem tick_process {begun : World P} (top : w.stack = .processPendingCallbacks :: rest)
    (began : w.step .tick = some begun) :
    begun = { w with stack := .drain w.globals.queue.batchSize :: rest } := by
  simp only [World.step, tick, top, Option.some.injEq] at began
  exact began.symm

/-- A call removes its batch from the front of the queue, and what is accepted meanwhile comes
after the rest. -/
theorem Frame.takes (frame : Frame w u) (valid : w.Delivering)
    (accepting : w.globals.queue.acceptingCallbacks = true) :
    u.Delivering ∧ Unstopped w u ∧
      Gate.taken (gatesSince w u) = w.provenance.take w.globals.queue.batchSize ∧
      u.provenance = w.provenance.drop w.globals.queue.batchSize ++
        Gate.acceptedSince (gatesSince w u) := by
  rcases frame with ⟨top, began, ran, returned⟩
  rename_i rest begun actions
  have first := step_delivering began valid
  have start := tick_process top began
  let serves := fun v : World P => v.Delivering ∧ Unstopped w v ∧
    (Serving w rest v ∨ Served w rest v)
  have since : gatesSince w begun = [] := by
    rw [start]
    simp [gatesSince]
  have initially : serves begun := by
    refine ⟨first, ⟨?_, ?_⟩, .inl ⟨[], w.globals.queue.batchSize, ?_, by simp, ?_⟩⟩
    · rw [start]
    · rw [since]
      simp
    · rw [start]
      rfl
    · rw [since]
      rfl
  have kept : ∀ {v action t}, True → v.calm rest action = some t → serves v → serves t := by
    intro v action t _ taken before
    rcases before with ⟨delivering, unstopped, serving | ⟨stack, _⟩⟩
    · have stepped := steps_of_during (during_of_calm taken).1
      exact ⟨step_delivering stepped delivering,
        serving.step unstopped valid.1 accepting delivering.1 taken⟩
    · cases (during_returned stack).symm.trans (during_of_calm taken).1
  have last : serves u := Transition.run_invariant kept ran (fun _ _ => True.intro) initially
  rcases last with ⟨delivering, unstopped, serving | ⟨_, counted⟩⟩
  · rcases serving with ⟨above, remaining, stack, _⟩
    have length := congrArg List.length (returned.symm.trans stack)
    rw [List.length_append, List.length_cons] at length
    omega
  · have split := unstopped.queue_append valid.1 delivering.1
    have batch : w.globals.queue.batchSize ≤ w.provenance.length := by
      rw [length_provenance valid.1]
      exact Nat.min_le_left _ _
    have front := congrArg (List.take w.globals.queue.batchSize) split
    have back := congrArg (List.drop w.globals.queue.batchSize) split
    rw [List.take_append_of_le_length batch, List.take_left' counted] at front
    rw [List.drop_append_of_le_length batch, List.drop_left' counted] at back
    exact ⟨delivering, unstopped, front.symm, back.symm⟩

/-! ## A call can always be completed -/

theorem calm_tick {op : GameOp} (top : w.stack = op :: rest) (quiet : op.interrupts = false)
    {below : List GameOp} (inside : below.length < w.stack.length) :
    w.calm below .tick = w.step .tick := by
  simp only [calm, top, List.head?_cons, Option.any_some, quiet, Bool.false_eq_true, ↓reduceIte,
    during]
  rw [top] at inside
  rw [if_pos inside]

/-- The next event of the batch, executed by a callback that returns at once. -/
theorem drain_next {left : Nat} (valid : w.Delivering) (top : w.stack = .drain (left + 1) :: rest) :
    ∃ actions t, Transition.run (calm rest) w actions = some t ∧
      (t.stack = rest ∨ t.stack = .drain left :: rest) := by
  have inside : rest.length < w.stack.length := by
    rw [top]
    exact Nat.lt_succ_self _
  have first := calm_tick top rfl inside
  cases popped : w.globals.queue.takeFront with
  | none =>
      refine ⟨[.tick], { w with stack := rest }, Transition.run_singleton.mpr ?_, .inl rfl⟩
      rw [first]
      simp only [step, tick, top, popped]
  | some pair =>
      rcases pair with ⟨event, queue⟩
      obtain ⟨filled, _⟩ := CallbackQueue.takeFront_eq_some_iff.mp popped
      have queued := valid.1.queued
      rw [filled] at queued
      obtain ⟨offer, provenance, front, _⟩ := List.map_eq_cons_iff.mp queued
      let taking : World P := { w with
        globals := { w.globals with queue }
        stack := .executeCallback event offer :: .drain left :: rest
        provenance, history := .gate (.taken offer) :: w.history }
      have took : w.calm rest .tick = some taking := by
        rw [first]
        simp only [step, tick, top, popped, front, taking]
      have next : taking.calm rest .tick = taking.step .tick := calm_tick rfl rfl (by
        simp only [taking, List.length_cons]
        omega)
      cases found : AmxxMqtt.executeCallback w.globals.clients event with
      | none =>
          refine ⟨[.tick, .tick], { taking with
            stack := .drain left :: rest, history := .discarded offer :: taking.history },
            Transition.run_cons.mpr ⟨taking, took, Transition.run_singleton.mpr ?_⟩, .inr rfl⟩
          rw [next]
          simp only [step, tick, taking, found]
      | some executed =>
          rcases executed with ⟨id, args⟩
          let calling : World P := { taking with
            stack := .foreign :: .drain left :: rest
            history := .executed offer id args :: taking.history }
          have called : taking.calm rest .tick = some calling := by
            rw [next]
            simp only [step, tick, taking, found, calling]
          refine ⟨[.tick, .tick, .ret], { calling with stack := .drain left :: rest },
            Transition.run_cons.mpr ⟨taking, took, Transition.run_cons.mpr ⟨calling, called,
              Transition.run_singleton.mpr ?_⟩⟩, .inr rfl⟩
          simp only [calm, during, calling, List.length_cons, step]
          rw [if_pos (by omega)]

/-- The loop ends, whatever is queued, when its callbacks do. -/
theorem drain_all (count : Nat) (valid : w.Delivering) (top : w.stack = .drain count :: rest) :
    ∃ actions t, Transition.run (calm rest) w actions = some t ∧ t.stack = rest := by
  induction count generalizing w with
  | zero =>
      refine ⟨[.tick], { w with stack := rest }, Transition.run_singleton.mpr ?_, rfl⟩
      rw [calm_tick top rfl (by rw [top]; exact Nat.lt_succ_self _)]
      simp only [step, tick, top]
  | succ count ih =>
      obtain ⟨actions, t, ran, stack | stack⟩ := drain_next valid top
      · exact ⟨actions, t, ran, stack⟩
      · have later : t.Delivering := by
          refine Transition.run_invariant (fun _ taken delivering => ?_) ran
            (fun _ _ => True.intro) valid
          exact step_delivering (steps_of_during (during_of_calm taken).1) delivering
        obtain ⟨more, u, continued, returned⟩ := ih later stack
        exact ⟨actions ++ more, u, Transition.run_append.mpr ⟨t, ran, continued⟩, returned⟩

/-- A call that has begun can run to its end. -/
theorem exists_frame (valid : w.Delivering) (top : w.stack = .processPendingCallbacks :: rest) :
    ∃ u, Frame w u := by
  have began : w.step .tick =
      some { w with stack := .drain w.globals.queue.batchSize :: rest } := by
    simp only [step, tick, top]
  obtain ⟨actions, u, ran, returned⟩ := drain_all _ (step_delivering began valid) rfl
  exact ⟨u, .mk top began ran returned⟩

/-! ## Call after call -/

/-- A step between two calls: no stop, no call of `ProcessPendingCallbacks`. -/
def idle (w : World P) : Action → Option (World P)
  | .tick => if w.stack.head?.any fun op => op.interrupts || op.drains then none else w.tick
  | action => w.step action

theorem step_of_idle {action : Action} (taken : w.idle action = some t) :
    w.step action = some t ∧ ∀ op below, action = .tick → w.stack = op :: below →
      op.interrupts = false ∧ op.drains = false := by
  cases action with
  | tick =>
      simp only [idle] at taken
      split at taken
      · cases taken
      · rename_i quiet
        refine ⟨taken, fun op below _ top => ?_⟩
        simpa only [top, List.head?_cons, Option.any_some, Bool.not_eq_true, Bool.or_eq_false_iff]
          using quiet
  | call | ret | callback | dispatch => exact ⟨taken, fun _ _ ticks => by cases ticks⟩

/-- Between two calls events are only added at the back. -/
theorem run_idle {actions : List Action} (ran : Transition.run idle w actions = some t)
    (valid : w.Delivering) :
    t.Delivering ∧ Unstopped w t ∧ Gate.taken (gatesSince w t) = [] := by
  let kept := fun v : World P => v.Delivering ∧ Unstopped w v ∧ Gate.taken (gatesSince w v) = []
  have preserved : ∀ {v action u}, True → v.idle action = some u → kept v → kept u := by
    intro v action u _ taken before
    rcases before with ⟨delivering, unstopped, none⟩
    obtain ⟨stepped, quiet⟩ := step_of_idle taken
    obtain ⟨newer, gates, kinds⟩ := step_gates stepped
    have plain : .closed ∉ newer ∧ Gate.taken newer = [] := by
      rcases kinds with kinds | ⟨ticks, below, top⟩ | ⟨ticks, left, below, event, offer, top, _⟩
      · exact kinds
      · cases (quiet _ _ ticks top).1
      · cases (quiet _ _ ticks top).2
    obtain ⟨later, total⟩ := unstopped.append (step_history stepped) gates plain.1
    exact ⟨step_delivering stepped delivering, later, by rw [total, none, plain.2]; rfl⟩
  have initially : kept w := ⟨valid, Unstopped.refl w, by simp [gatesSince, Gate.taken]⟩
  have last : kept t := Transition.run_invariant preserved ran (fun _ _ => True.intro) initially
  exact last

/-- From one world to a later one there are this many whole calls, with idle steps after each. -/
inductive Frames (w : World P) : Nat → World P → Prop
  | start : Frames w 0 w
  | next {count : Nat} {v u t : World P} {actions : List Action} (earlier : Frames w count v)
      (frame : Frame v u) (between : Transition.run idle u actions = some t) :
      Frames w (count + 1) t

theorem Frames.valid {count : Nat} {v : World P} (frames : Frames w count v)
    (valid : w.Delivering) (accepting : w.globals.queue.acceptingCallbacks = true) :
    v.Delivering ∧ v.globals.queue.acceptingCallbacks = true := by
  induction frames with
  | start => exact ⟨valid, accepting⟩
  | next earlier frame between ih =>
      obtain ⟨before, accepting⟩ := ih
      obtain ⟨after, unstopped, _⟩ := frame.takes before accepting
      obtain ⟨last, idle, _⟩ := run_idle between after
      exact ⟨last, idle.accepting after.1 last.1
        (unstopped.accepting before.1 after.1 accepting)⟩

/-- Every call moves an event 256 places forward, until fewer are ahead of it. -/
theorem Frames.position {count : Nat} {v : World P} (frames : Frames w count v)
    (valid : w.Delivering) (accepting : w.globals.queue.acceptingCallbacks = true) {place : Nat}
    {offer : Offer} (queued : w.provenance[place]? = some offer) (enough : 256 * count ≤ place) :
    v.provenance[place - 256 * count]? = some offer := by
  induction frames with
  | start => exact queued
  | @next count v u t actions earlier frame between ih =>
      obtain ⟨before, open_⟩ := earlier.valid valid accepting
      obtain ⟨after, _, _, rest⟩ := frame.takes before open_
      obtain ⟨last, idle, none⟩ := run_idle between after
      have here := ih (by omega)
      have inside := (List.getElem?_eq_some_iff.mp here).1
      -- at least 256 events are ahead, so the batch is full
      have batch : v.globals.queue.batchSize = 256 := by
        rw [length_provenance before.1] at inside
        exact Nat.min_eq_right (by rw [CallbackQueue.maxCallbacksPerFrame]; omega)
      have added := idle.queue_append after.1 last.1
      rw [none, List.nil_append] at added
      rw [← added, rest, batch, List.getElem?_append_left, List.getElem?_append_left,
        List.getElem?_drop]
      · have same : 256 + (place - 256 * (count + 1)) = place - 256 * count := by omega
        rw [same, here]
      · rw [List.length_drop]
        omega
      · rw [List.length_append, List.length_drop]
        omega

/-- What a call takes is what is within its batch. -/
theorem Frame.mem_taken_iff (frame : Frame w u) (valid : w.Delivering)
    (accepting : w.globals.queue.acceptingCallbacks = true) {place : Nat} {offer : Offer}
    (queued : w.provenance[place]? = some offer) :
    offer ∈ Gate.taken (gatesSince w u) ↔ place < 256 := by
  have distinct : w.provenance.Nodup := by
    have all := valid.1.trace.taken_append_queue_sublist.nodup valid.1.offered_nodup
    exact (List.nodup_append.mp all).2.1
  have inside := (List.getElem?_eq_some_iff.mp queued).1
  have batch : w.globals.queue.batchSize = min w.provenance.length 256 := by
    rw [length_provenance valid.1]
    rfl
  rw [(frame.takes valid accepting).2.2.1, batch, List.mem_take_iff_getElem]
  constructor
  · intro among
    rcases among with ⟨index, bound, same⟩
    have equal : index = place := by
      obtain ⟨_, here⟩ := List.getElem?_eq_some_iff.mp queued
      exact (List.Nodup.getElem_inj_iff distinct).mp (same.trans here.symm)
    omega
  · intro near
    exact ⟨place, by omega, (List.getElem?_eq_some_iff.mp queued).2⟩

/-- An event within reach of the calls so far has been taken. -/
theorem Frames.taken {count : Nat} {v : World P} (frames : Frames w count v)
    (valid : w.Delivering) (accepting : w.globals.queue.acceptingCallbacks = true) {place : Nat}
    {offer : Offer} (queued : w.provenance[place]? = some offer) (reached : place < 256 * count) :
    offer ∈ Gate.taken (gateLog v.history) := by
  induction frames with
  | start => omega
  | @next count v u t actions earlier frame between ih =>
      obtain ⟨before, open_⟩ := earlier.valid valid accepting
      obtain ⟨after, unstopped, _⟩ := frame.takes before open_
      obtain ⟨_, idle, _⟩ := run_idle between after
      rw [gateLog_eq_gatesSince idle.later, gateLog_eq_gatesSince unstopped.later,
        Gate.taken_append, Gate.taken_append]
      refine List.mem_append_left _ ?_
      by_cases earlierReach : place < 256 * count
      · exact List.mem_append_left _ (ih earlierReach)
      · have here := earlier.position valid accepting queued (by omega)
        exact List.mem_append_right _ ((frame.mem_taken_iff before open_ here).mpr (by omega))

/-- An event with `place` events ahead of it is taken in call `place / 256 + 1` from then. -/
theorem Frames.taken_iff {count : Nat} {v : World P} (frames : Frames w count v) (frame : Frame v u)
    (valid : w.Delivering) (accepting : w.globals.queue.acceptingCallbacks = true) {place : Nat}
    {offer : Offer} (queued : w.provenance[place]? = some offer) :
    offer ∈ Gate.taken (gatesSince v u) ↔ count = place / 256 := by
  obtain ⟨before, open_⟩ := frames.valid valid accepting
  by_cases reached : place < 256 * count
  · refine iff_of_false (fun again => ?_) (by omega)
    obtain ⟨after, unstopped, _⟩ := frame.takes before open_
    have distinct := after.1.trace.taken_sublist.nodup after.1.offered_nodup
    rw [gateLog_eq_gatesSince unstopped.later, Gate.taken_append] at distinct
    exact List.disjoint_of_nodup_append distinct (frames.taken valid accepting queued reached) again
  · have here := frames.position valid accepting queued (by omega)
    rw [frame.mem_taken_iff before open_ here]
    omega

end World

/-- **Frame budget and bounded delay.**  From every reachable world in which callbacks are
accepted: a call of `ProcessPendingCallbacks` during which nothing stops the dispatcher, whatever
its callbacks destroy and whoever enqueues, removes exactly the first `min n 256` of the `n`
queued events and leaves the others before what was accepted meanwhile; a call that has begun can
be completed; and over calls with no stop in between, an event with `place` events ahead of it is
taken in the call after `place / 256` others and in no other. -/
theorem frame_budget {P : PahoOptions} {before : List Action} {w : World P}
    (ran : Transition.run World.step World.initial before = some w)
    (accepting : w.globals.queue.acceptingCallbacks = true) :
    (∀ u, World.Frame w u →
      Gate.taken (World.gatesSince w u) =
        w.provenance.take (min w.globals.queue.pendingCallbacks.length 256) ∧
      (Gate.taken (World.gatesSince w u)).map Offer.event =
        w.globals.queue.pendingCallbacks.take (min w.globals.queue.pendingCallbacks.length 256) ∧
      u.globals.queue.pendingCallbacks =
        w.globals.queue.pendingCallbacks.drop (min w.globals.queue.pendingCallbacks.length 256) ++
          (Gate.acceptedSince (World.gatesSince w u)).map Offer.event) ∧
    (∀ rest, w.stack = .processPendingCallbacks :: rest → ∃ u, World.Frame w u) ∧
    ∀ place offer count v u, w.provenance[place]? = some offer → World.Frames w count v →
      World.Frame v u → (offer ∈ Gate.taken (World.gatesSince v u) ↔ count = place / 256) := by
  have valid := World.run_delivering ran World.initial_delivering
  refine ⟨fun u frame => ?_, fun rest top => World.exists_frame valid top,
    fun place offer count v u queued frames frame =>
      frames.taken_iff frame valid accepting queued⟩
  obtain ⟨after, _, taken, left⟩ := frame.takes valid accepting
  have events := congrArg (List.map Offer.event) taken
  have queue := congrArg (List.map Offer.event) left
  rw [List.map_take, valid.1.queued] at events
  rw [List.map_append, List.map_drop, valid.1.queued, after.1.queued] at queue
  exact ⟨taken, events, queue⟩

/-- Three hundred connections are reported before the call. -/
def crowdedQueue : List Action :=
  [.call .startCallbackDispatcher, .tick] ++
    List.replicate 300 (.dispatch 3 (.connectedCallbackDispatcher 1)) ++
    [.call .processPendingCallbacks]

/-- The call takes 256 of them, and the last one waits for the next call. -/
theorem frame_budget_crowded : ∃ (w u v t : World .plain) (offer : Offer),
    Transition.run World.step World.initial crowdedQueue = some w ∧
      World.Frame w u ∧ (Gate.taken (World.gatesSince w u)).length = 256 ∧
      World.Frames w 1 v ∧ World.Frame v t ∧
      w.provenance[299]? = some offer ∧ offer ∉ Gate.taken (World.gatesSince w u) ∧
      offer ∈ Gate.taken (World.gatesSince v t) := by
  have state : (Transition.run World.step (World.initial : World .plain) crowdedQueue).map
      (fun w => (w.stack, w.globals.queue.acceptingCallbacks, w.provenance.length,
        w.globals.queue.pendingCallbacks.length)) =
      some ([.processPendingCallbacks], true, 300, 300) := by decide +kernel
  obtain ⟨w, ran, state⟩ := Option.map_eq_some_iff.mp state
  simp only [Prod.mk.injEq] at state
  rcases state with ⟨top, accepting, offered, pending⟩
  obtain ⟨taken, begins, delay⟩ := frame_budget ran accepting
  obtain ⟨u, frame⟩ := begins [] top
  have whole : (Gate.taken (World.gatesSince w u)).length = 256 := by
    rw [(taken u frame).1, List.length_take, offered, pending]
    rfl
  have returned : u.stack = [] := by
    cases frame with
    | mk top' began calm back =>
        cases top'.symm.trans top
        exact back
  have again : u.idle (.call .processPendingCallbacks) =
      some { u with stack := [.processPendingCallbacks] } := by
    simp [World.idle, World.step, World.outside, World.enter, GameCall.body, returned]
  have frames : World.Frames w 1 { u with stack := [.processPendingCallbacks] } :=
    .next .start frame (Transition.run_singleton.mpr again)
  have valid := World.run_delivering ran World.initial_delivering
  obtain ⟨t, next⟩ := World.exists_frame (frames.valid valid accepting).1 rfl
  have place : 299 < w.provenance.length := by omega
  have queued : w.provenance[299]? = some w.provenance[299] := List.getElem?_eq_getElem place
  exact ⟨w, u, _, t, _, ran, frame, whole, frames, next, queued,
    (delay 299 _ 0 w u queued .start frame).not.mpr (by decide),
    (delay 299 _ 1 _ t queued frames next).mpr rfl⟩

end AmxxMqtt
