import AmxxMqtt.World

/-!
# The event queue over whole runs

The queue is a gate: `QueueValid` says that the history of a world, seen as offers at the gate,
leads to its queue, and `FlightValid` that the events taken off it are those disposed of plus
the one being executed.  Both are kept by every step, whatever the executed callbacks and the
workers do, and with them `fifo_exactly_once` follows from the facts about gates.
-/

namespace AmxxMqtt

variable {P : PahoOptions}

/-- The history leads to the queue, and the offers in it are numbered in order. -/
structure QueueValid (w : World P) : Prop where
  trace : Gate.Trace (gateLog w.history) w.globals.queue.acceptingCallbacks w.provenance
  queued : w.provenance.map Offer.event = w.globals.queue.pendingCallbacks
  serials : (Gate.offered (gateLog w.history)).Pairwise fun a b => a.serial < b.serial
  numbered : ∀ offer ∈ Gate.offered (gateLog w.history), offer.serial < w.history.length

namespace QueueValid

variable {w t : World P}

theorem initial : QueueValid (World.initial : World P) where
  trace := .nil
  queued := rfl
  serials := List.Pairwise.nil
  numbered _ member := by cases member

/-- Steps that leave the queue alone. -/
theorem of_quiet (valid : QueueValid w) (longer : w.history.length ≤ t.history.length)
    (queue : t.globals.queue = w.globals.queue := by rfl)
    (provenance : t.provenance = w.provenance := by rfl)
    (gate : gateLog t.history = gateLog w.history := by rfl) : QueueValid t where
  trace := by rw [gate, queue, provenance]; exact valid.trace
  queued := by rw [provenance, queue]; exact valid.queued
  serials := by rw [gate]; exact valid.serials
  numbered offer member := by
    rw [gate] at member
    exact Nat.lt_of_lt_of_le (valid.numbered offer member) longer

/-- A new offer is numbered after all others. -/
theorem offered_cons (valid : QueueValid w) (offer : Offer) (event : Gate.Event Offer)
    (numbered : offer.serial = w.history.length)
    (offered : Gate.offered (event :: gateLog w.history) =
      Gate.offered (gateLog w.history) ++ [offer]) :
    (Gate.offered (event :: gateLog w.history)).Pairwise (fun a b => a.serial < b.serial) ∧
      ∀ other ∈ Gate.offered (event :: gateLog w.history),
        other.serial < w.history.length + 1 := by
  rw [offered]
  refine ⟨List.pairwise_append.mpr ⟨valid.serials, List.pairwise_singleton _ _, ?_⟩, ?_⟩
  · intro earlier member last isLast
    rw [List.mem_singleton.mp isLast, numbered]
    exact valid.numbered earlier member
  · intro other member
    rcases List.mem_append.mp member with earlier | isLast
    · exact Nat.lt_succ_of_lt (valid.numbered other earlier)
    · rw [List.mem_singleton.mp isLast, numbered]
      exact Nat.lt_succ_self _

/-- Recording an offer once the queue has dealt with it. -/
theorem record (valid : QueueValid w) {producer : Producer} {source : Option ObjectId}
    {call : DispatcherCall} (queue : t.globals.queue = w.globals.queue.enqueueCallback call.event)
    (provenance : t.provenance = w.provenance) (history : t.history = w.history) :
    QueueValid (t.record producer source call) := by
  have trace := valid.trace
  let offer : Offer := ⟨w.history.length, producer, source, call⟩
  cases isOpen : w.globals.queue.acceptingCallbacks with
  | true =>
      have added := CallbackQueue.enqueueCallback_of_accepting call.event isOpen
      rw [isOpen] at trace
      obtain ⟨serials, numbered⟩ := valid.offered_cons offer (.accepted offer) rfl rfl
      constructor <;>
        simp only [World.record, history, provenance, queue, added, ↓reduceIte, gateLog_cons,
          WorldEvent.gateEvents, List.singleton_append]
      · exact .accept offer trace
      · rw [List.map_append, valid.queued]
        rfl
      · exact serials
      · exact numbered
  | false =>
      have same := CallbackQueue.enqueueCallback_of_not_accepting call.event isOpen
      rw [isOpen] at trace
      obtain ⟨serials, numbered⟩ := valid.offered_cons offer (.refused offer) rfl rfl
      constructor <;>
        simp only [World.record, history, provenance, queue, same, isOpen, Bool.false_eq_true,
          ↓reduceIte, gateLog_cons, WorldEvent.gateEvents, List.singleton_append]
      · exact .refuse offer trace
      · exact valid.queued
      · exact serials
      · exact numbered

theorem offer (valid : QueueValid w) (producer : Producer) (source : Option ObjectId)
    (call : DispatcherCall) : QueueValid (w.offer producer source call) :=
  valid.record rfl rfl rfl

theorem offerAll (valid : QueueValid w) (producer : Producer) (source : Option ObjectId)
    (calls : List DispatcherCall) : QueueValid (w.offerAll producer source calls) := by
  induction calls generalizing w with
  | nil => exact valid
  | cons call calls ih => exact ih (valid.offer producer source call)

theorem receive (valid : QueueValid w) (producer : Producer) (handle : Int) (object : ObjectId)
    (callback : PahoCallback) : QueueValid (w.receive producer handle object callback) := by
  refine offerAll ?_ _ _ _
  exact valid.of_quiet (Nat.le_refl _)

theorem returned (valid : QueueValid w) {native : Native} {host : Host} {params : List Cell}
    {r : NativeReturn P} (returns : Returns host params w.globals native r) :
    QueueValid (w.returned native host params r) := by
  rcases returns.dispatch_cases with ⟨none, queue⟩ | ⟨object, call, one, queue⟩
  · simp only [World.returned, none, World.recordAll]
    exact valid.of_quiet (Nat.le_succ _) queue
  · simp only [World.returned, one, World.recordAll]
    have called : QueueValid { w with
        history := .native ⟨native, host, params, r.value, r.effects⟩ :: w.history } :=
      valid.of_quiet (Nat.le_succ _)
    exact called.record queue rfl rfl

/-- Every step keeps the queue and its history in step. -/
theorem step {action : Action} (taken : w.step action = some t) (valid : QueueValid w) :
    QueueValid t := by
  cases World.steps taken with
  | native outside invoked admitted => exact valid.returned (Native.returns invoked)
  | callback made => exact valid.receive _ _ _ _
  | dispatch => exact valid.offer _ _ _
  | start top =>
      constructor
      · exact .reopen valid.trace
      · exact valid.queued
      · exact valid.serials
      · exact fun offer member => Nat.lt_succ_of_lt (valid.numbered offer member)
  | stop top =>
      constructor
      · exact .close valid.trace
      · rfl
      · exact valid.serials
      · exact fun offer member => Nat.lt_succ_of_lt (valid.numbered offer member)
  | take top popped front =>
      obtain ⟨queue, accepting⟩ := CallbackQueue.takeFront_eq_some_iff.mp popped
      have trace := valid.trace
      have queued := valid.queued
      rw [queue, front] at trace queued
      constructor
      · simp only [accepting]
        exact .take trace
      · exact (List.cons.inj queued).2
      · exact valid.serials
      · exact fun offer member => Nat.lt_succ_of_lt (valid.numbered offer member)
  | resetClients | destruct | resetOptions | execute | discard =>
      exact valid.of_quiet (Nat.le_succ _)
  | entered | ret | hook | unhook | process | drained => exact valid.of_quiet (Nat.le_refl _)

end QueueValid

/-! ## Workers and a stopped dispatcher -/

theorem World.offer_globals_of_stopped {w : World P}
    (stopped : w.globals.queue.acceptingCallbacks = false) (producer : Producer)
    (source : Option ObjectId) (call : DispatcherCall) :
    (w.offer producer source call).globals = w.globals := by
  show { w.globals with queue := w.globals.queue.enqueueCallback call.event } = w.globals
  rw [CallbackQueue.enqueueCallback_of_not_accepting _ stopped]

theorem World.offerAll_globals_of_stopped {w : World P}
    (stopped : w.globals.queue.acceptingCallbacks = false) (producer : Producer)
    (source : Option ObjectId) (calls : List DispatcherCall) :
    (w.offerAll producer source calls).globals = w.globals := by
  induction calls generalizing w with
  | nil => rfl
  | cons call calls ih =>
      have same := World.offer_globals_of_stopped stopped producer source call
      have still : (w.offer producer source call).globals.queue.acceptingCallbacks = false := by
        rw [same]
        exact stopped
      exact (ih still).trans same

/-- A Paho callback offers to a stopped dispatcher in vain. -/
theorem World.receive_queue_of_stopped {w : World P} {queue : CallbackQueue}
    (same : w.globals.queue = queue) (stopped : queue.acceptingCallbacks = false)
    {producer : Producer} {handle : Int} {object : ObjectId} {callback : PahoCallback} :
    (w.receive producer handle object callback).globals.queue = queue := by
  unfold World.receive
  rw [World.offerAll_globals_of_stopped]
  · exact same
  · show w.globals.queue.acceptingCallbacks = false
    rw [same]
    exact stopped

/-! ## Events being executed -/

/-- The offers whose events the stack is about to execute. -/
def inFlight (stack : List GameOp) : List Offer :=
  stack.filterMap fun
    | .executeCallback _ offer => some offer
    | _ => none

theorem mem_inFlight_of_mem {stack : List GameOp} {event : CallbackEvent} {offer : Offer}
    (member : .executeCallback event offer ∈ stack) : offer ∈ inFlight stack :=
  List.mem_filterMap.mpr ⟨_, member, rfl⟩

@[simp] theorem inFlight_append (front back : List GameOp) :
    inFlight (front ++ back) = inFlight front ++ inFlight back :=
  List.filterMap_append

@[simp] theorem inFlight_destruct (clients : List AmxxMqttClient) :
    inFlight (clients.map .destruct) = [] := by
  simp [inFlight]

theorem inFlight_body (call : GameCall) : inFlight call.body = [] := by
  cases call <;> rfl

/-- Only the top of the stack executes an event, the event was taken for its offer since the last
stop, and the offers disposed of so far are all others taken. -/
structure FlightValid (w : World P) : Prop where
  tail : inFlight w.stack.tail = []
  resolved : resolvedOffers w.history ++ inFlight w.stack = Gate.taken (gateLog w.history)
  taken : ∀ {event offer}, .executeCallback event offer ∈ w.stack →
    offer.event = event ∧ offer ∈ Gate.takenSince (gateLog w.history)

namespace FlightValid

variable {w t : World P}

theorem initial : FlightValid (World.initial : World P) where
  tail := rfl
  resolved := rfl
  taken member := by cases member

theorem inFlight_of_outside (valid : FlightValid w) (outside : w.outside = true) :
    inFlight w.stack = [] := by
  have tail := valid.tail
  unfold World.outside at outside
  split at outside
  · simp only [*]
    rfl
  · rename_i rest top
    rw [top] at tail ⊢
    exact tail
  · cases outside

/-- Steps after which nothing is in flight. -/
theorem of_settled (valid : FlightValid w) (settled : inFlight t.stack = [])
    (resolved : resolvedOffers t.history = resolvedOffers w.history ++ inFlight w.stack)
    (gate : Gate.taken (gateLog t.history) = Gate.taken (gateLog w.history)) : FlightValid t where
  tail := List.eq_nil_of_sublist_nil
    (settled ▸ (List.tail_sublist t.stack).filterMap _)
  resolved := by rw [settled, List.append_nil, resolved, gate, valid.resolved]
  taken member := by
    have flying := mem_inFlight_of_mem member
    rw [settled] at flying
    cases flying

/-- The next statement is not the execution of an event, and neither is what it leads to. -/
theorem of_plain (valid : FlightValid w) {op : GameOp} {rest : List GameOp}
    (top : w.stack = op :: rest) (pushed : List GameOp) (after : t.stack = pushed ++ rest)
    (quiet : inFlight pushed = [])
    (resolved : resolvedOffers t.history = resolvedOffers w.history)
    (plain : inFlight [op] = [] := by rfl)
    (gate : Gate.taken (gateLog t.history) = Gate.taken (gateLog w.history) := by rfl) :
    FlightValid t := by
  have tail := valid.tail
  rw [top, List.tail_cons] at tail
  refine valid.of_settled ?_ ?_ gate
  · rw [after, inFlight_append, quiet, tail, List.nil_append]
  · rw [resolved, top, ← List.singleton_append, inFlight_append, plain, tail, List.append_nil,
      List.append_nil]

/-- The next statement is the execution of an event, which disposes of its offer. -/
theorem of_executed (valid : FlightValid w) {event : CallbackEvent} {offer : Offer}
    {rest : List GameOp} (top : w.stack = .executeCallback event offer :: rest)
    (after : inFlight t.stack = inFlight rest)
    (resolved : resolvedOffers t.history = resolvedOffers w.history ++ [offer])
    (gate : Gate.taken (gateLog t.history) = Gate.taken (gateLog w.history)) : FlightValid t := by
  have tail := valid.tail
  rw [top, List.tail_cons] at tail
  refine valid.of_settled ?_ ?_ gate
  · rw [after, tail]
  · have flying : inFlight w.stack = offer :: inFlight rest := by
      rw [top]
      exact List.filterMap_cons_some (by simp only)
    rw [resolved, flying, tail]

/-- Offers change neither the stack nor what was taken. -/
theorem record (valid : FlightValid w) {producer : Producer} {source : Option ObjectId}
    {call : DispatcherCall} (stack : t.stack = w.stack) (history : t.history = w.history) :
    FlightValid (t.record producer source call) := by
  have gate : Gate.taken (gateLog (t.record producer source call).history) =
        Gate.taken (gateLog w.history) ∧
      Gate.takenSince (gateLog (t.record producer source call).history) =
        Gate.takenSince (gateLog w.history) := by
    simp only [World.record, history, gateLog_cons, WorldEvent.gateEvents, List.singleton_append]
    split <;> exact ⟨rfl, rfl⟩
  have resolved : resolvedOffers (t.record producer source call).history =
      resolvedOffers w.history := by
    simp only [World.record, history, resolvedOffers_cons, WorldEvent.resolved, Option.toList_none,
      List.append_nil]
  have same : (t.record producer source call).stack = w.stack := stack
  refine ⟨same ▸ valid.tail, ?_, fun {event offer} member => ?_⟩
  · rw [resolved, gate.1, same, valid.resolved]
  · rw [same] at member
    exact ⟨(valid.taken member).1, gate.2 ▸ (valid.taken member).2⟩

theorem offerAll (valid : FlightValid w) (producer : Producer) (source : Option ObjectId)
    (calls : List DispatcherCall) : FlightValid (w.offerAll producer source calls) := by
  induction calls generalizing w with
  | nil => exact valid
  | cons call calls ih => exact ih (valid.record rfl rfl)

theorem receive (valid : FlightValid w) (producer : Producer) (handle : Int) (object : ObjectId)
    (callback : PahoCallback) : FlightValid (w.receive producer handle object callback) := by
  refine offerAll ?_ _ _ _
  exact ⟨valid.tail, valid.resolved, valid.taken⟩

theorem returned (valid : FlightValid w) (outside : w.outside = true) {native : Native}
    {host : Host} {params : List Cell} {r : NativeReturn P}
    (returns : Returns host params w.globals native r) :
    FlightValid (w.returned native host params r) := by
  have none := valid.inFlight_of_outside outside
  have called : FlightValid { w with
      stack := r.removed.toList.map .destruct ++ w.stack
      history := .native ⟨native, host, params, r.value, r.effects⟩ :: w.history } := by
    refine valid.of_settled ?_ ?_ rfl
    · rw [inFlight_append, inFlight_destruct, none, List.append_nil]
    · rw [none, resolvedOffers_cons]
      rfl
  rcases returns.dispatch_cases with ⟨none, _⟩ | ⟨object, call, one, _⟩
  · simp only [World.returned, none, World.recordAll]
    exact ⟨called.tail, called.resolved, called.taken⟩
  · simp only [World.returned, one, World.recordAll]
    exact called.record rfl rfl

theorem step {action : Action} (stepped : w.step action = some t) (queue : QueueValid w)
    (valid : FlightValid w) : FlightValid t := by
  cases World.steps stepped with
  | native outside invoked admitted => exact valid.returned outside (Native.returns invoked)
  | entered outside plain =>
      have none := valid.inFlight_of_outside outside
      refine valid.of_settled ?_ ?_ rfl
      · rw [inFlight_append, inFlight_body, none, List.append_nil]
      · rw [none, List.append_nil]
  | callback made => exact valid.receive _ _ _ _
  | dispatch => exact valid.record rfl rfl
  | @take remaining event rest offer provenance below top popped front =>
      have tail := valid.tail
      have resolved := valid.resolved
      have sync := queue.queued
      obtain ⟨filled, accepting⟩ := CallbackQueue.takeFront_eq_some_iff.mp popped
      rw [top, List.tail_cons] at tail
      have settled : inFlight w.stack = [] := by rw [top]; exact tail
      rw [settled, List.append_nil] at resolved
      rw [filled, front] at sync
      refine ⟨tail, ?_, fun {_ _} member => ?_⟩
      · simp only [resolvedOffers_cons, WorldEvent.resolved, Option.toList_none, List.append_nil,
          resolved]
        exact congrArg (fun last => Gate.taken (gateLog w.history) ++ (offer :: last)) tail
      · rcases List.mem_cons.mp member with same | deeper
        · cases same
          exact ⟨(List.cons.inj sync).1, List.mem_append_right _ (List.mem_singleton.mpr rfl)⟩
        · have flying := mem_inFlight_of_mem deeper
          rw [show inFlight (.drain remaining :: below) = [] from tail] at flying
          cases flying
  | execute top found | discard top found =>
      exact valid.of_executed top rfl (resolvedOffers_cons _ _) rfl
  | ret top | hook top | unhook top | drained top ended =>
      exact valid.of_plain top [] (List.nil_append _).symm rfl rfl
  | start top | stop top | destruct top | resetOptions top =>
      exact valid.of_plain top [] (List.nil_append _).symm rfl
        ((resolvedOffers_cons _ _).trans (List.append_nil _))
  | resetClients top =>
      exact valid.of_plain top _ rfl (inFlight_destruct _)
        ((resolvedOffers_cons _ _).trans (List.append_nil _))
  | process top => exact valid.of_plain top [.drain _] rfl rfl rfl

end FlightValid

/-! ## Whole runs -/

/-- Queue and history agree, and so do history and stack. -/
def World.Delivering (w : World P) : Prop :=
  QueueValid w ∧ FlightValid w

theorem World.step_delivering {w t : World P} {action : Action} (stepped : w.step action = some t)
    (valid : w.Delivering) : t.Delivering :=
  ⟨valid.1.step stepped, valid.2.step stepped valid.1⟩

theorem World.run_delivering {w t : World P} {actions : List Action}
    (ran : Transition.run World.step w actions = some t) (valid : w.Delivering) : t.Delivering :=
  Transition.run_invariant (fun _ stepped => step_delivering stepped) ran
    (fun _ _ => True.intro) valid

theorem World.initial_delivering : (World.initial : World P).Delivering :=
  ⟨QueueValid.initial, FlightValid.initial⟩

theorem executedOffers_sublist (history : History P) :
    (executedOffers history).Sublist (resolvedOffers history) := by
  induction history with
  | nil => exact List.Sublist.refl _
  | cons event history ih =>
      rw [resolvedOffers_cons]
      cases event with
      | executed offer id args => exact ih.append (List.Sublist.refl _)
      | _ => exact ih.trans (List.sublist_append_left _ _)

theorem QueueValid.offered_nodup {w : World P} (valid : QueueValid w) :
    (Gate.offered (gateLog w.history)).Nodup := by
  refine valid.serials.imp fun {first second} before => ?_
  rintro rfl
  exact Nat.lt_irrefl _ before

/-- An offer lost by some state is not taken in any later one. -/
theorem World.not_taken_of_lost {w t : World P} {actions : List Action} (valid : w.Delivering)
    (ran : Transition.run World.step w actions = some t) {offer : Offer}
    (lost : offer ∈ Gate.lost (gateLog w.history)) : offer ∉ Gate.taken (gateLog t.history) := by
  have later := World.run_delivering ran valid
  have stillLost := Gate.lost_mono (gateLog_suffix (World.run_history ran)) lost
  exact later.1.trace.not_taken_of_lost later.1.offered_nodup stillLost

/-- What the execution of an event does. -/
theorem World.tick_executeCallback {w t : World P} {event : CallbackEvent} {offer : Offer}
    {rest : List GameOp} (top : w.stack = .executeCallback event offer :: rest)
    (ticked : w.step .tick = some t) :
    (∃ id args, executeCallback w.globals.clients event = some (id, args) ∧
        t.history = .executed offer id args :: w.history) ∨
      executeCallback w.globals.clients event = none ∧
        t.history = .discarded offer :: w.history := by
  cases World.steps ticked with
  | execute other found =>
      cases other.symm.trans top
      exact .inl ⟨_, _, found, rfl⟩
  | discard other found =>
      cases other.symm.trans top
      exact .inr ⟨found, rfl⟩
  | start other | stop other | resetClients other | destruct other | resetOptions other
  | hook other | unhook other | process other | drained other | take other =>
      cases other.symm.trans top

/-- A step that executes a forward executes the event of an offer taken since the last stop, for
the client live under its handle at that moment. -/
theorem World.executed_inv {w t : World P} {action : Action} {offer : Offer} {id : Int}
    {args : List ForwardArg} (flight : FlightValid w) (stepped : w.step action = some t)
    (executed : t.history = .executed offer id args :: w.history) :
    offer ∈ Gate.takenSince (gateLog w.history) ∧
      ∃ client, w.globals.clients.getClient offer.event.handle = some client ∧
        client.forwardId offer.event.type = id ∧ id ≠ -1 ∧ args = offer.event.args := by
  cases World.steps stepped with
  | execute top found =>
      simp only [List.cons.injEq, WorldEvent.executed.injEq, and_true] at executed
      rcases executed with ⟨rfl, rfl, rfl⟩
      obtain ⟨rfl, taken⟩ := flight.taken (top ▸ List.mem_cons_self)
      exact ⟨taken, executeCallback_eq_some_iff.mp found⟩
  | native outside invoked admitted =>
      rcases World.returned_history with ⟨gates, history⟩
      rw [history] at executed
      cases gates <;> cases executed
  | callback made =>
      rcases World.receive_history with ⟨gates, history⟩
      rw [history] at executed
      cases gates with
      | nil => exact absurd executed (List.cons_ne_self _ _).symm
      | cons gate gates => cases executed
  | entered | ret | hook | unhook | process | drained =>
      exact absurd executed (List.cons_ne_self _ _).symm
  | dispatch | start | stop | resetClients | destruct | resetOptions | take | discard =>
      cases executed

/-- **First in, first out, exactly once.**  In every reachable world, whatever the workers and
the executed callbacks did: what was taken off the queue since the last stop is a prefix of what
was accepted since then; every offer taken so far was disposed of, once and in that order, or is
being executed now; the execution under way runs one forward if the handle is live with a forward
of that kind at that moment, and none otherwise; an offer refused, or queued when the dispatcher
is stopped, is never taken, now or later; and each producer's executed offers are, each once and
in order, among those it made. -/
theorem fifo_exactly_once {actions : List Action} {w : World P}
    (ran : Transition.run World.step World.initial actions = some w) :
    Gate.takenSince (gateLog w.history) <+: Gate.acceptedSince (gateLog w.history) ∧
    resolvedOffers w.history ++ inFlight w.stack = Gate.taken (gateLog w.history) ∧
    (∀ {event offer rest t}, w.stack = .executeCallback event offer :: rest →
      w.step .tick = some t →
        (∀ client, w.globals.clients.getClient offer.event.handle = some client →
          client.forwardId offer.event.type ≠ -1 →
            t.history = .executed offer (client.forwardId offer.event.type) offer.event.args ::
              w.history) ∧
        ((∀ client, w.globals.clients.getClient offer.event.handle = some client →
          client.forwardId offer.event.type = -1) →
            t.history = .discarded offer :: w.history)) ∧
    (∀ {later t}, Transition.run World.step w later = some t →
      (∀ offer, .refused offer ∈ gateLog w.history → offer ∉ Gate.taken (gateLog t.history)) ∧
      (∀ {rest}, w.stack = .stopCallbackDispatcher :: rest → ∀ {stopped},
        w.step .tick = some stopped → ∀ {after}, Transition.run World.step stopped after = some t →
          ∀ offer ∈ w.provenance, offer ∉ Gate.taken (gateLog t.history))) ∧
    (Gate.offered (gateLog w.history)).Nodup ∧
    ∀ producer : Producer,
      ((executedOffers w.history).filter fun offer => offer.producer = producer).Sublist
        ((Gate.offered (gateLog w.history)).filter fun offer => offer.producer = producer) := by
  have valid := World.run_delivering ran World.initial_delivering
  rcases valid with ⟨queue, flight⟩
  refine ⟨queue.trace.takenSince_of_accepted, flight.resolved, ?_, ?_, queue.offered_nodup,
    fun producer => ?_⟩
  · intro event offer rest t top ticked
    obtain ⟨rfl, _⟩ := flight.taken (top ▸ List.mem_cons_self)
    rcases World.tick_executeCallback top ticked with ⟨id, args, found, history⟩ | ⟨none, history⟩
    · obtain ⟨client, live, stored, valid, rfl⟩ := executeCallback_eq_some_iff.mp found
      refine ⟨fun other otherLive _ => ?_, fun unset => ?_⟩
      · cases live.symm.trans otherLive
        rw [history, stored]
      · exact absurd (stored.symm.trans (unset client live)) valid
    · refine ⟨fun client live set => ?_, fun _ => history⟩
      have found := executeCallback_eq_some_iff.mpr ⟨client, live, rfl, set, rfl⟩
      cases none.symm.trans found
  · intro later t continued
    refine ⟨fun offer refused => ?_,
      fun {rest} top {stopped} ticked {after} rested offer queued => ?_⟩
    · exact World.not_taken_of_lost ⟨queue, flight⟩ continued (Gate.mem_lost_of_refused refused)
    · refine World.not_taken_of_lost (World.step_delivering ticked ⟨queue, flight⟩) rested ?_
      have lost : Gate.lost (.closed :: gateLog w.history) = _ := queue.trace.lost_close
      cases World.steps ticked with
      | stop other => exact lost ▸ List.mem_append_right _ queued
      | start other | resetClients other | destruct other | resetOptions other | hook other
      | unhook other | process other | drained other | take other | execute other
      | discard other => cases other.symm.trans top
  · have executed := (executedOffers_sublist w.history).trans
      (flight.resolved ▸ List.sublist_append_left _ (inFlight w.stack))
    exact (executed.trans queue.trace.taken_sublist).filter _

/-- One event is accepted, taken and executed, a second one is flushed by a stop. -/
theorem fifo_exactly_once_flushed :
    ∃ w : World .plain, Transition.run World.step World.initial
        [.call .startCallbackDispatcher, .tick, .call (.native .mqttCreate .plain [0, 0]),
          .call (.native .mqttSetConnectedCallback (.registering 7) [1, 0]),
          .callback 3 1 0 (.connected []), .call .processPendingCallbacks, .tick, .tick, .tick,
          .dispatch 4 (.connectedCallbackDispatcher 1), .call .stopCallbackDispatcher, .tick] =
            some w ∧
      (executedOffers w.history).map Offer.producer = [.worker 3] ∧
      (Gate.lost (gateLog w.history)).map Offer.producer = [.worker 4] ∧
      Gate.takenSince (gateLog w.history) <+: Gate.acceptedSince (gateLog w.history) := by
  have state : (Transition.run World.step (World.initial : World .plain)
      [.call .startCallbackDispatcher, .tick, .call (.native .mqttCreate .plain [0, 0]),
        .call (.native .mqttSetConnectedCallback (.registering 7) [1, 0]),
        .callback 3 1 0 (.connected []), .call .processPendingCallbacks, .tick, .tick, .tick,
        .dispatch 4 (.connectedCallbackDispatcher 1), .call .stopCallbackDispatcher, .tick]).map
          (fun w => ((executedOffers w.history).map Offer.producer,
            (Gate.lost (gateLog w.history)).map Offer.producer)) =
              some ([.worker 3], [.worker 4]) := by decide +kernel
  obtain ⟨w, ran, state⟩ := Option.map_eq_some_iff.mp state
  obtain ⟨executed, lost⟩ := Prod.mk.inj state
  exact ⟨w, ran, executed, lost, (fifo_exactly_once ran).1⟩

end AmxxMqtt
