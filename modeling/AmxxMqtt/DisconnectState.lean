import AmxxMqtt.Teardown

/-!
# The connection flag behind a disconnected notification

When the disconnected handler runs for a disconnect of the broker's or for a disconnect that
succeeded, the flag has been cleared and only a connected callback can have set it again.  A
disconnect that failed, or that Paho refused, notifies as well but says nothing about the
connection: the flag is what it was.
-/

namespace AmxxMqtt

variable {H : Type}

/-- The disconnect was requested, and failed or was refused. -/
def Trigger.fails : Trigger → Bool
  | .paho (.onFailure _) | .disconnectThrew => true
  | _ => false

theorem Trigger.stored_of_disconnected {trigger : Trigger} (kind : trigger.type = .disconnected) :
    trigger.stored = if trigger.fails then none else some false := by
  cases trigger with
  | disconnectThrew => rfl
  | paho callback => cases callback <;> first | rfl | cases kind

/-- While nobody stores `true` the flag stays up exactly as long as nobody stores `false`. -/
theorem lastFlag_append {newer older : List (ClientEvent H)}
    (silent : ∀ id, .stored id true ∉ newer) :
    lastFlag (newer ++ older) = true ↔ lastFlag older = true ∧ ∀ id, .stored id false ∉ newer := by
  induction newer with
  | nil => simp
  | cons event newer ih =>
      have inner := ih fun id member => silent id (List.mem_cons_of_mem _ member)
      cases event with
      | stored id value =>
          cases value with
          | true => exact absurd List.mem_cons_self (silent id)
          | false =>
              refine iff_of_false (by simp [lastFlag]) fun always => ?_
              exact always.2 id List.mem_cons_self
      | installed | began | copied | invoked | stopped | destroyed =>
          simpa [lastFlag] using inner

/-- What an activation that invokes a handler has stored, it has stored since it began. -/
theorem ClientSystem.Valid.stored_since {s₁ s : ClientSystem H} (started : s₁.Valid)
    {id : Nat} {trigger : Trigger} {handler : H} {oldest middle : List (ClientEvent H)}
    (begins : s₁.history = .began id trigger :: oldest)
    (since : s.history = middle ++ s₁.history)
    (invokes : ClientEvent.Explained (.invoked id handler) s.history) {value : Bool}
    (stores : trigger.stored = some value) : .stored id value ∈ middle := by
  rcases invokes with ⟨_, other, events⟩
  have began : .began id trigger ∈ eventsOf id s.history := by
    rw [since, begins]
    exact mem_eventsOf.mpr ⟨List.mem_append_right _ List.mem_cons_self, rfl⟩
  have same : trigger = other := by
    rw [events] at began
    simpa [Trigger.opening] using began
  have stored : .stored id value ∈ eventsOf id s.history := by
    rw [events, ← same, Trigger.opening, stores]
    simp
  rw [since, eventsOf_append] at stored
  rcases List.mem_append.mp stored with later | earlier
  · exact (mem_eventsOf.mp later).1
  · have course := started.courses id
    rw [begins, eventsOf_cons_of_eq rfl] at course earlier
    have course : Course id ([] ++ .began id trigger :: eventsOf id oldest) := course
    have none := course.began_first
    rw [none] at earlier
    simp at earlier

/-- **What the flag says at a disconnected notification.**  Let a callback or a call begin in
`s₀`, and let it invoke the disconnected handler in `s`, with no connected callback storing the
flag in between.  Then the client still reports itself connected exactly if this is a failed
disconnect, the client reported itself connected when it began, and no other callback has cleared
the flag since. -/
theorem disconnected_flag_iff {before after : List (ClientAction H)} {s₀ s₁ s t : ClientSystem H}
    {first last : ClientAction H} {id : Nat} {trigger : Trigger} {handler : H}
    {middle : List (ClientEvent H)}
    (ran : Transition.run ClientSystem.step ClientSystem.initial before = some s₀)
    (triggered : s₀.step first = some s₁) (begins : s₁.history = .began id trigger :: s₀.history)
    (continued : Transition.run ClientSystem.step s₁ after = some s)
    (stepped : s.step last = some t) (invokes : t.history = .invoked id handler :: s.history)
    (kind : trigger.type = .disconnected) (since : s.history = middle ++ s₁.history)
    (noConnect : ∀ other, .stored other true ∉ middle) :
    s.client.isConnected = true ↔
      trigger.fails = true ∧ s₀.client.isConnected = true ∧
        ∀ other, .stored other false ∉ middle := by
  have valid₀ := ClientSystem.Valid.of_run ran
  have valid₁ := valid₀.step triggered
  have valid := valid₁.run continued
  have explained := (valid.step stepped).explained [] _ _ invokes
  have flag : s.client.isConnected = true ↔
      s₀.client.isConnected = true ∧ ∀ other, .stored other false ∉ middle := by
    rw [valid.flag, valid₀.flag, since, lastFlag_append noConnect, begins]
    rfl
  rw [flag]
  constructor
  · intro connected
    refine ⟨?_, connected⟩
    by_contra succeeded
    have stores := Trigger.stored_of_disconnected kind
    rw [if_neg succeeded] at stores
    exact connected.2 id (valid₁.stored_since begins since explained stores)
  · intro failed
    exact failed.2

/-- A disconnect that Paho accepts and reports as failed runs the handler of a client that still
reports itself connected. -/
theorem failed_disconnect_connected :
    ¬ ∀ (before after : List (ClientAction Nat)) (s₀ s₁ s t : ClientSystem Nat)
        (first last : ClientAction Nat) (id : Nat) (trigger : Trigger) (handler : Nat)
        (middle : List (ClientEvent Nat)),
        Transition.run ClientSystem.step ClientSystem.initial before = some s₀ →
        s₀.step first = some s₁ → s₁.history = .began id trigger :: s₀.history →
        Transition.run ClientSystem.step s₁ after = some s →
        s.step last = some t → t.history = .invoked id handler :: s.history →
        trigger.type = .disconnected → s.history = middle ++ s₁.history →
        (∀ other, .stored other true ∉ middle) → s.client.isConnected = false := by
  intro always
  let before : List (ClientAction Nat) := [.setHandler .disconnected (some 5),
    .deliver (.connected []), .advance 1, .advance 1, .advance 1, .disconnect 0 none]
  have state : ((Transition.run ClientSystem.step (ClientSystem.initial : ClientSystem Nat)
      before).bind fun s₀ => (s₀.step (.deliver (.onFailure 0))).bind fun s₁ =>
        (Transition.run ClientSystem.step s₁ [.advance 4]).bind fun s =>
          (s.step (.advance 4)).map fun t => (decide (s₁.history =
              .began 4 (.paho (.onFailure 0)) :: s₀.history ∧
            t.history = .invoked 4 5 :: s.history ∧
            s.history = [.copied 4 .disconnected (some 5)] ++ s₁.history),
              s.client.isConnected)) = some (true, true) := by
    decide +kernel
  obtain ⟨s₀, ran, state⟩ := Option.bind_eq_some_iff.mp state
  obtain ⟨s₁, triggered, state⟩ := Option.bind_eq_some_iff.mp state
  obtain ⟨s, continued, state⟩ := Option.bind_eq_some_iff.mp state
  obtain ⟨t, stepped, state⟩ := Option.map_eq_some_iff.mp state
  obtain ⟨shape, connected⟩ := Prod.mk.inj state
  obtain ⟨begins, invokes, since⟩ := of_decide_eq_true shape
  have clear := always _ _ s₀ s₁ s t _ _ 4 _ 5 _ ran triggered begins continued stepped invokes rfl
    since (by simp)
  rw [connected] at clear
  cases clear

/-- The broker disconnects a connected client. -/
theorem disconnected_flag_iff_broker :
    ∃ s t : ClientSystem Nat,
      s.step (.advance 4) = some t ∧ t.history = .invoked 4 5 :: s.history ∧
      ¬ s.client.isConnected = true := by
  let before : List (ClientAction Nat) := [.setHandler .disconnected (some 5),
    .deliver (.connected []), .advance 1, .advance 1, .advance 1]
  have state : ((Transition.run ClientSystem.step (ClientSystem.initial : ClientSystem Nat)
      before).bind fun s₀ => (s₀.step (.deliver (.disconnected 4))).bind fun s₁ =>
        (Transition.run ClientSystem.step s₁ [.advance 4, .advance 4]).bind fun s =>
          (s.step (.advance 4)).map fun t => decide (s₁.history =
              .began 4 (.paho (.disconnected 4)) :: s₀.history ∧
            t.history = .invoked 4 5 :: s.history ∧
            s.history = [.copied 4 .disconnected (some 5), .stored 4 false] ++ s₁.history)) =
              some true := by
    decide +kernel
  obtain ⟨s₀, ran, state⟩ := Option.bind_eq_some_iff.mp state
  obtain ⟨s₁, triggered, state⟩ := Option.bind_eq_some_iff.mp state
  obtain ⟨s, continued, state⟩ := Option.bind_eq_some_iff.mp state
  obtain ⟨t, stepped, shape⟩ := Option.map_eq_some_iff.mp state
  obtain ⟨begins, invokes, since⟩ := of_decide_eq_true shape
  have flag := disconnected_flag_iff ran triggered begins continued stepped invokes rfl since
    (by simp)
  refine ⟨s, t, stepped, invokes, fun connected => ?_⟩
  obtain ⟨fails, _⟩ := flag.mp connected
  cases fails

end AmxxMqtt
