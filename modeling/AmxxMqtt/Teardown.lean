import AmxxMqtt.ActivationHistory

/-!
# Teardown

However Paho's threads and the destructor interleave, a callback that copies its handler after
`m_stopping` was set invokes nothing, and once the destructor has returned nothing is invoked at
all.
-/

namespace AmxxMqtt

variable {H : Type}

/-- An activation begins once, before everything else it does. -/
theorem Progress.opens {id : Nat} {trigger : Trigger} {remaining : List Statement}
    {copy : Option H} {events : List (ClientEvent H)}
    (progress : Progress id trigger remaining copy events) :
    ∃ later, events = later ++ [.began id trigger] ∧ ∀ other, .began id other ∉ later := by
  have stores : ∀ other, (.began id other : ClientEvent H) ∉
      trigger.stored.toList.map (.stored id) := by
    intro other member
    obtain ⟨value, _, same⟩ := List.mem_map.mp member
    cases same
  cases progress with
  | began => exact ⟨[], rfl, by simp⟩
  | ready => exact ⟨_, rfl, stores⟩
  | copied found =>
      refine ⟨_ :: _, rfl, fun other member => stores other ?_⟩
      exact (List.mem_cons.mp member).resolve_left (by simp)
  | ended found =>
      refine ⟨found.toList.map (.invoked id) ++ .copied id trigger.type found ::
        trigger.stored.toList.map (.stored id), by simp [Trigger.opening], fun other member => ?_⟩
      rcases List.mem_append.mp member with invoked | earlier
      · obtain ⟨handler, _, same⟩ := List.mem_map.mp invoked
        cases same
      · exact stores other ((List.mem_cons.mp earlier).resolve_left (by simp))

theorem Course.began_first {id : Nat} {newer older : List (ClientEvent H)} {trigger : Trigger}
    (course : Course id (newer ++ .began id trigger :: older)) : older = [] := by
  rcases course with none | ⟨other, remaining, copy, progress⟩
  · simp at none
  · rcases progress.opens with ⟨later, split, once⟩
    rcases List.append_eq_append_iff.mp split with ⟨gap, rfl, rest⟩ | ⟨gap, rfl, rest⟩
    · cases gap with
      | nil => exact (List.cons.inj rest).2
      | cons event gap =>
          obtain ⟨rfl, _⟩ := List.cons.inj rest
          exact absurd (List.mem_append_right _ List.mem_cons_self) (once trigger)
    · cases gap with
      | nil => exact (List.cons.inj rest).2.symm
      | cons event gap =>
          have none := (List.cons.inj rest).2
          cases gap <;> cases none

/-- The copy behind an invocation, and what was installed when it was made. -/
theorem ClientSystem.Valid.copied_of_invoked {s : ClientSystem H} (valid : s.Valid)
    {newer older : List (ClientEvent H)} {id : Nat} {handler : H}
    (split : s.history = newer ++ .invoked id handler :: older) :
    ∃ middle oldest type, older = middle ++ .copied id type (some handler) :: oldest ∧
      .stopped ∉ oldest ∧ lastInstalled oldest type = some handler := by
  obtain ⟨_, trigger, events⟩ := valid.explained newer _ older split
  have copied : .copied id trigger.type (some handler) ∈ older :=
    (mem_eventsOf.mp (events ▸ List.mem_cons_self)).1
  obtain ⟨middle, oldest, below⟩ := List.append_of_mem copied
  have whole : s.history = (newer ++ .invoked id handler :: middle) ++
      .copied id trigger.type (some handler) :: oldest := by
    rw [split, below, List.append_assoc, List.cons_append]
  obtain ⟨silenced, found⟩ := valid.explained _ _ oldest whole
  have running : .stopped ∉ oldest := fun stopped => by cases silenced stopped
  exact ⟨middle, oldest, trigger.type, below, running, (found running).symm⟩

/-- **Teardown silences a client.**  In every run: a callback whose copy comes after `m_stopping`
was set invokes no handler, nor does a callback that begins after it, such as the failure of a
request the teardown cancels; no invocation comes after the destructor has returned; and a
handler invoked was installed at the moment it was copied. -/
theorem teardown_silences {actions : List (ClientAction H)} {s : ClientSystem H}
    (ran : Transition.run ClientSystem.step ClientSystem.initial actions = some s) :
    (∀ newer older id type found, s.history = newer ++ .copied id type found :: older →
      .stopped ∈ older → ∀ handler, .invoked id handler ∉ s.history) ∧
    (∀ newer older id trigger, s.history = newer ++ .began id trigger :: older →
      .stopped ∈ older → ∀ handler, .invoked id handler ∉ s.history) ∧
    (∀ newer older id handler, s.history = newer ++ .invoked id handler :: older →
      .destroyed ∉ older ∧
        ∃ middle oldest type, older = middle ++ .copied id type (some handler) :: oldest ∧
          .stopped ∉ oldest ∧ lastInstalled oldest type = some handler) := by
  have valid := ClientSystem.Valid.of_run ran
  refine ⟨fun newer older id type found split stopped handler invoked => ?_,
    fun newer older id trigger split stopped handler invoked => ?_,
    fun newer older id handler split => ⟨(valid.explained _ _ _ split).1,
      valid.copied_of_invoked split⟩⟩
  · obtain ⟨silenced, _⟩ := valid.explained _ _ _ split
    have copied : .copied id type found ∈ s.history := by
      rw [split]
      exact List.mem_append_right _ List.mem_cons_self
    have held := (valid.courses id).copied_of_invoked (mem_eventsOf.mpr ⟨invoked, rfl⟩)
      (mem_eventsOf.mpr ⟨copied, rfl⟩)
    rw [silenced stopped] at held
    cases held
  · obtain ⟨newest, rest, apart⟩ := List.append_of_mem invoked
    obtain ⟨middle, oldest, type, below, running, _⟩ := valid.copied_of_invoked apart
    have course := valid.courses id
    rw [split, eventsOf_append, eventsOf_cons_of_eq rfl] at course
    have first := course.began_first
    have whole : (newest ++ .invoked id handler :: middle) ++
        .copied id type (some handler) :: oldest = newer ++ .began id trigger :: older := by
      rw [← split, apart, below, List.append_assoc, List.cons_append]
    rcases List.append_eq_append_iff.mp whole with ⟨gap, _, order⟩ | ⟨gap, _, order⟩
    · cases gap with
      | nil => cases (List.cons.inj order).1
      | cons event gap =>
          -- the copy comes after the beginning, so it does not see `stopped`
          obtain ⟨_, rfl⟩ := List.cons.inj order
          exact running (List.mem_append_right _ (List.mem_cons_of_mem _ stopped))
    · cases gap with
      | nil => cases (List.cons.inj order).1
      | cons event gap =>
          obtain ⟨_, rfl⟩ := List.cons.inj order
          have before : .copied id type (some handler) ∈ eventsOf id (gap ++
              .copied id type (some handler) :: oldest) :=
            mem_eventsOf.mpr ⟨List.mem_append_right _ List.mem_cons_self, rfl⟩
          rw [show eventsOf id (gap ++ .copied id type (some handler) :: oldest) = [] from first]
            at before
          cases before

/-- A copy made before the destructor starts is invoked during it, and the failure of the request
it cancels is not. -/
theorem teardown_silences_cancelled :
    ∃ s : ClientSystem Nat,
      Transition.run ClientSystem.step ClientSystem.initial
        [.setHandler .disconnected (some 5), .disconnect 0 none, .deliver (.disconnected 4),
          .advance 1, .advance 1, .stop, .deliver (.onFailure 0), .advance 5, .advance 1,
          .advance 5, .destroy] = some s ∧
      s.history = [.destroyed, .invoked 1 5, .copied 5 .disconnected none,
        .began 5 (.paho (.onFailure 0)), .stopped, .copied 1 .disconnected (some 5),
        .stored 1 false, .began 1 (.paho (.disconnected 4)), .installed .disconnected (some 5)] ∧
      ∀ handler, .invoked 5 handler ∉ s.history := by
  have state : (Transition.run ClientSystem.step (ClientSystem.initial : ClientSystem Nat)
      [.setHandler .disconnected (some 5), .disconnect 0 none, .deliver (.disconnected 4),
        .advance 1, .advance 1, .stop, .deliver (.onFailure 0), .advance 5, .advance 1,
        .advance 5, .destroy]).map ClientSystem.history =
      some [.destroyed, .invoked 1 5, .copied 5 .disconnected none,
        .began 5 (.paho (.onFailure 0)), .stopped, .copied 1 .disconnected (some 5),
        .stored 1 false, .began 1 (.paho (.disconnected 4)),
        .installed .disconnected (some 5)] := by
    decide +kernel
  obtain ⟨s, ran, history⟩ := Option.map_eq_some_iff.mp state
  refine ⟨s, ran, history, (teardown_silences ran).2.1 [.destroyed, .invoked 1 5,
    .copied 5 .disconnected none] _ 5 _ history ?_⟩
  exact List.mem_cons_self

end AmxxMqtt
