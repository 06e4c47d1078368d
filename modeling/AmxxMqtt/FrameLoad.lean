import AmxxMqtt.FrameBudget
import AmxxMqtt.Lib.Backlog

/-!
# The queue under load

Each call of `ProcessPendingCallbacks` serves up to 256 events, and producers add more while it
runs and until the next one.  How long the queue is then depends only on how many events were
accepted in each of these periods.
-/

namespace AmxxMqtt

variable {P : PahoOptions}

namespace World

variable {w v u t : World P} {arrivals : List Nat}

/-- Whole calls with idle steps after each, and how many events were accepted in each period. -/
inductive Periods (w : World P) : List Nat → World P → Prop
  | start : Periods w [] w
  | next {arrivals : List Nat} {v u t : World P} {actions : List Action}
      (earlier : Periods w arrivals v) (frame : Frame v u)
      (between : Transition.run idle u actions = some t) :
      Periods w (arrivals ++ [(Gate.acceptedSince (gatesSince v t)).length]) t

/-- One period: the batch leaves, and what is accepted comes. -/
theorem Frame.period (frame : Frame v u) {actions : List Action}
    (between : Transition.run idle u actions = some t) (valid : v.Delivering)
    (accepting : v.globals.queue.acceptingCallbacks = true) :
    t.Delivering ∧ t.globals.queue.acceptingCallbacks = true ∧
      t.globals.queue.pendingCallbacks.length =
        v.globals.queue.pendingCallbacks.length - CallbackQueue.maxCallbacksPerFrame +
          (Gate.acceptedSince (gatesSince v t)).length := by
  obtain ⟨served, unstopped, taken, left⟩ := frame.takes valid accepting
  obtain ⟨last, idle, none⟩ := run_idle between served
  have open_ := idle.accepting served.1 last.1 (unstopped.accepting valid.1 served.1 accepting)
  refine ⟨last, open_, ?_⟩
  obtain ⟨whole, total⟩ := unstopped.append idle.later (gateLog_eq_gatesSince idle.later)
    idle.unclosed
  have lengths := congrArg List.length (whole.queue_append valid.1 last.1)
  rw [total, taken, none, List.append_nil, List.length_append, List.length_append,
    List.length_take, length_provenance valid.1, length_provenance last.1,
    CallbackQueue.batchSize] at lengths
  omega

theorem Periods.backlog (periods : Periods w arrivals v) (valid : w.Delivering)
    (accepting : w.globals.queue.acceptingCallbacks = true) :
    v.Delivering ∧ v.globals.queue.acceptingCallbacks = true ∧
      v.globals.queue.pendingCallbacks.length =
        Backlog.after CallbackQueue.maxCallbacksPerFrame
          w.globals.queue.pendingCallbacks.length arrivals := by
  induction periods with
  | start => exact ⟨valid, accepting, rfl⟩
  | next earlier frame between ih =>
      obtain ⟨before, open_, length⟩ := ih
      obtain ⟨after, still, period⟩ := frame.period between before open_
      exact ⟨after, still, by rw [period, length, Backlog.after_append]⟩

end World

/-- **How long the queue gets.**  From every reachable world in which callbacks are accepted, after
any calls of `ProcessPendingCallbacks` with no stop in between: at most `limit` events are queued
if and only if what was queued and accepted in all exceeds that by no more than 256 for each
period, and what was accepted in each number of recent periods by no more than 256 for all but one
of them.  So producers that keep to 256 events a period with bursts of `burst` never let more than
`burst` wait in addition to what was queued at first, or to 256 if that was less. -/
theorem backlog_le_iff {before : List Action} {w v : World P} {arrivals : List Nat}
    (ran : Transition.run World.step World.initial before = some w)
    (accepting : w.globals.queue.acceptingCallbacks = true)
    (periods : World.Periods w arrivals v) :
    (∀ limit, v.globals.queue.pendingCallbacks.length ≤ limit ↔
      w.globals.queue.pendingCallbacks.length + arrivals.sum ≤ limit + 256 * arrivals.length ∧
        ∀ recent, recent <:+ arrivals → recent ≠ [] →
          recent.sum + 256 ≤ limit + 256 * recent.length) ∧
    ∀ burst, (∀ recent, recent <:+ arrivals → recent.sum ≤ 256 * recent.length + burst) →
      v.globals.queue.pendingCallbacks.length ≤
        burst + max w.globals.queue.pendingCallbacks.length 256 := by
  have valid := World.run_delivering ran World.initial_delivering
  rw [(periods.backlog valid accepting).2.2]
  exact ⟨fun limit => Backlog.after_le_iff, fun burst => Backlog.after_le_of_burst⟩

/-- Two events are served, and one more is queued before the next call. -/
def loaded : List Action :=
  [.call .startCallbackDispatcher, .tick, .dispatch 3 (.connectedCallbackDispatcher 1),
    .dispatch 4 (.connectionLostCallbackDispatcher 1 [65]), .call .processPendingCallbacks]

theorem backlog_le_iff_served : ∃ w v : World .plain,
    Transition.run World.step World.initial loaded = some w ∧ World.Periods w [1] v ∧
      v.globals.queue.pendingCallbacks.length ≤ 1 := by
  have state : (((Transition.run World.step (World.initial : World .plain) loaded).bind fun w =>
      (w.step .tick).bind fun begun =>
        (Transition.run (World.calm []) begun (List.replicate 5 .tick)).bind fun u =>
          (Transition.run World.idle u [.dispatch 3 (.connectedCallbackDispatcher 1)]).map fun v =>
            ((w.stack, u.stack, w.globals.queue.acceptingCallbacks),
              w.globals.queue.pendingCallbacks.length,
              (Gate.acceptedSince (World.gatesSince w v)).length))) =
      some (([.processPendingCallbacks], [], true), 2, 1) := by decide +kernel
  simp only [Option.bind_eq_some_iff, Option.map_eq_some_iff] at state
  obtain ⟨w, ran, begun, began, u, served, v, between, state⟩ := state
  simp only [Prod.mk.injEq] at state
  obtain ⟨⟨top, returned, accepting⟩, queued, accepted⟩ := state
  have frame : World.Frame w u := .mk top began served returned
  have periods : World.Periods w [1] v := accepted ▸ .next .start frame between
  refine ⟨w, v, ran, periods, ((backlog_le_iff ran accepting periods).1 1).mpr ⟨?_, ?_⟩⟩
  · rw [queued]
    decide
  · intro recent suffix nonempty
    rcases List.suffix_cons_iff.mp suffix with rfl | empty
    · decide
    · exact absurd (List.suffix_nil.mp empty) nonempty

end AmxxMqtt
