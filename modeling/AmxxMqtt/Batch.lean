import AmxxMqtt.QueueHistory

/-!
# One batch of events

What `ProcessPendingCallbacks` executes between the moment it takes its batch size and its
return.  Its loop is bounded by a number only, and the callbacks it runs can stop and restart the
dispatcher: it keeps to the events queued when it began exactly as long as it takes nothing off
the queue after a stop, nor more than was queued then.
-/

namespace AmxxMqtt

variable {P : PahoOptions}

namespace World

/-- A step taken while the call above `rest` has not returned. -/
def during (rest : List GameOp) (w : World P) (action : Action) : Option (World P) :=
  if rest.length < w.stack.length then w.step action else none

/-- What happened at the queue since an earlier world of the run. -/
def gatesSince (began w : World P) : List (Gate.Event Offer) :=
  (gateLog w.history).take ((gateLog w.history).length - (gateLog began.history).length)

/-- The loop above `rest` executes a forward for this offer next. -/
def Executes (rest : List GameOp) (w : World P) (offer : Offer) : Prop :=
  ∃ event remaining, w.stack = .executeCallback event offer :: .drain remaining :: rest ∧
    (AmxxMqtt.executeCallback w.globals.clients event).isSome

/-- The call executes events that were queued when it began, and none once the dispatcher was
stopped. -/
def RunsBatch (began : World P) (rest : List GameOp) (w : World P) : Prop :=
  ∀ offer, w.Executes rest offer → offer ∈ began.provenance ∧ .closed ∉ gatesSince began w

/-- If the loop takes an event with a forward to execute off the queue, then the dispatcher was
not stopped since the call began, and fewer events were taken off since than were queued then. -/
def TakesBatch (began : World P) (rest : List GameOp) (w : World P) (action : Action) : Prop :=
  action = .tick → ∀ remaining event queue, w.stack = .drain (remaining + 1) :: rest →
    w.globals.queue.takeFront = some (event, queue) →
    (AmxxMqtt.executeCallback w.globals.clients event).isSome →
      .closed ∉ gatesSince began w ∧
        (Gate.taken (gatesSince began w)).length < began.provenance.length

variable {began w t : World P} {rest : List GameOp}

theorem steps_of_during {action : Action} (taken : w.during rest action = some t) :
    w.step action = some t := by
  unfold during at taken
  split at taken
  · exact taken
  · cases taken

theorem gateLog_eq_gatesSince (later : began.history <:+ w.history) :
    gateLog w.history = gatesSince began w ++ gateLog began.history := by
  obtain ⟨newer, split⟩ := gateLog_suffix later
  rw [gatesSince, ← split, List.length_append, Nat.add_sub_cancel, List.take_left]

/-- A Paho callback leaves every event its forward. -/
theorem executeCallback_received (clients : MqttClientMgr) (handle : Int)
    (callback : PahoCallback) (event : CallbackEvent) :
    AmxxMqtt.executeCallback (received clients handle callback) event =
      AmxxMqtt.executeCallback clients event := by
  unfold received
  split
  · rename_i client live
    unfold AmxxMqtt.executeCallback
    by_cases same : event.handle = handle
    · have found : clients.clients.lookup event.handle = some client := same ▸ live
      simp only [found, MqttClientMgr.setClient, MqttClientMgr.getClient, Table.lookup_insert_iff,
        same, ↓reduceIte]
    · simp only [MqttClientMgr.setClient, MqttClientMgr.getClient, Table.lookup_insert_iff, same,
        ↓reduceIte]
  · rfl

/-! ## What a step executes next -/

/-- Nothing is executed next while no event is in flight. -/
theorem runsBatch_of_inFlight (settled : inFlight t.stack = []) : RunsBatch began rest t := by
  intro offer takes
  rcases takes with ⟨event, remaining, top, _⟩
  rw [top] at settled
  cases settled

theorem takesBatch_of_top {op : GameOp} {below : List GameOp} {action : Action}
    (top : w.stack = op :: below) (other : ∀ remaining, op ≠ .drain (remaining + 1)) :
    TakesBatch began rest w action := by
  intro _ remaining event queue drain
  exact absurd (List.cons.inj (top.symm.trans drain)).1 (other remaining)

/-- An event is executed for an offer taken since the last stop. -/
theorem Executes.taken {offer : Offer} (flight : FlightValid w) (executes : w.Executes rest offer) :
    offer ∈ Gate.takenSince (gateLog w.history) := by
  rcases executes with ⟨event, remaining, top, _⟩
  exact (flight.taken (top ▸ List.mem_cons_self)).2

/-- An event queued when the call began is not executed after a stop: the stop flushed it. -/
theorem runsBatch_iff (start : QueueValid began) (valid : w.Delivering)
    (later : began.history <:+ w.history) :
    RunsBatch began rest w ↔ ∀ offer, w.Executes rest offer → offer ∈ began.provenance := by
  refine ⟨fun runs offer executes => (runs offer executes).1,
    fun runs offer executes => ⟨runs offer executes, fun closed => ?_⟩⟩
  have taken := valid.1.trace.takenSince_of_accepted.subset (executes.taken valid.2)
  have distinct := valid.1.offered_nodup
  rw [gateLog_eq_gatesSince later, Gate.acceptedSince_append_of_closed closed] at taken
  rw [gateLog_eq_gatesSince later, Gate.offered_append] at distinct
  exact List.disjoint_of_nodup_append distinct (start.trace.queue_subset (runs offer executes))
    (Gate.acceptedSince_subset _ taken)

/-- The offer a take removes was queued when the call began exactly when the take is in time. -/
theorem mem_provenance_iff (start : QueueValid began) (valid : QueueValid w)
    (later : began.history <:+ w.history) {offer : Offer} {provenance : List Offer}
    (front : w.provenance = offer :: provenance) :
    offer ∈ began.provenance ↔ .closed ∉ gatesSince began w ∧
      (Gate.taken (gatesSince began w)).length < began.provenance.length := by
  have trace := valid.trace
  have distinct := valid.offered_nodup
  rw [gateLog_eq_gatesSince later] at trace distinct
  rw [front] at trace
  exact start.trace.front_mem_iff trace distinct

/-- A step of the call keeps to the batch exactly when its take, if it is one, is in time. -/
theorem step_runsBatch (start : QueueValid began) {action : Action}
    (stepped : w.step action = some t) (valid : w.Delivering)
    (later : began.history <:+ w.history) (runs : RunsBatch began rest w) :
    RunsBatch began rest t ↔ TakesBatch began rest w action := by
  have after := step_delivering stepped valid
  have longer := later.trans (step_history stepped)
  have tail := valid.2.tail
  have below : ∀ {op under}, w.stack = op :: under → inFlight under = [] := by
    intro op under top
    rw [top] at tail
    exact tail
  rw [runsBatch_iff start valid later] at runs
  cases World.steps stepped with
  | native outside invoked admitted =>
      refine iff_of_true (runsBatch_of_inFlight ?_) fun ticks => by cases ticks
      rw [returned_stack, inFlight_append, inFlight_destruct, valid.2.inFlight_of_outside outside,
        List.append_nil]
  | entered outside plain =>
      refine iff_of_true (runsBatch_of_inFlight ?_) fun ticks => by cases ticks
      rw [inFlight_append, inFlight_body, valid.2.inFlight_of_outside outside, List.append_nil]
  | ret top => exact iff_of_true (runsBatch_of_inFlight (below top)) fun ticks => by cases ticks
  | callback made =>
      refine iff_of_true ((runsBatch_iff start after longer).mpr ?_) fun ticks => by cases ticks
      intro offer takes
      rcases takes with ⟨event, remaining, top, found⟩
      rw [receive_stack] at top
      rw [receive_clients, executeCallback_received] at found
      exact runs offer ⟨event, remaining, top, found⟩
  | dispatch =>
      refine iff_of_true ((runsBatch_iff start after longer).mpr runs) fun ticks => by cases ticks
  | @take remaining event queue offer provenance under top popped front =>
      rw [runsBatch_iff start after longer]
      have inTime := mem_provenance_iff start valid.1 later front
      constructor
      · intro batch _ left other queue' drain popped' found
        obtain ⟨_, rfl⟩ := List.cons.inj (top.symm.trans drain)
        obtain ⟨rfl, rfl⟩ := Prod.mk.inj (Option.some.inj (popped.symm.trans popped'))
        exact inTime.mp (batch offer ⟨event, remaining, rfl, found⟩)
      · intro takes _ later
        rcases later with ⟨other, left, drain, found⟩
        cases drain
        exact inTime.mpr (takes rfl remaining event queue top popped found)
  | execute top found | discard top found =>
      have settled := below top
      exact iff_of_true (runsBatch_of_inFlight settled)
        (takesBatch_of_top top fun _ same => by cases same)
  | @drained remaining under top ended =>
      refine iff_of_true (runsBatch_of_inFlight (below top)) ?_
      intro _ left event queue drain popped _
      rcases ended with rfl | empty
      · cases top.symm.trans drain
      · cases empty.symm.trans popped
  | resetClients top =>
      refine iff_of_true (runsBatch_of_inFlight ?_)
        (takesBatch_of_top top fun _ same => by cases same)
      rw [inFlight_append, inFlight_destruct, below top, List.append_nil]
  | process top | start top | stop top | destruct top | resetOptions top | hook top
  | unhook top =>
      have settled := below top
      exact iff_of_true (runsBatch_of_inFlight settled)
        (takesBatch_of_top top fun _ same => by cases same)

end World

end AmxxMqtt
