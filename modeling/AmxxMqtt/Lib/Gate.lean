import Mathlib.Data.List.Perm.Basic
import Mathlib.Data.List.Nodup
import Mathlib.Data.List.Perm.Lattice

/-!
# A gated first-in first-out queue

A gate is a queue with a switch.  While the switch is on an offer is accepted at the back and
a take removes the front; while it is off an offer is refused.  Closing the gate switches it
off and flushes what is queued.

`Trace log isOpen queue` says which logs (newest event first) lead to which gate.  The theorems
read what such a log can contain: `Trace.accepted_eq` is first-in first-out since the last close,
`Trace.offered_perm` splits every offer into taken, lost and still queued, and
`Trace.taken_sublist` keeps the takes in the order of the offers, each at most once.

Nothing here mentions a program.
-/

namespace Gate

variable {α : Type*}

/-- What can happen at a gate. -/
inductive Event (α : Type*) where
  | accepted (a : α)
  | refused (a : α)
  | taken (a : α)
  | closed
  | opened
  deriving DecidableEq

/-- `Trace log isOpen queue`: the log, newest event first, leaves the gate with this switch
and this queue. -/
inductive Trace : List (Event α) → Bool → List α → Prop
  | nil : Trace [] false []
  | accept {log : List (Event α)} {queue : List α} (a : α) :
      Trace log true queue → Trace (.accepted a :: log) true (queue ++ [a])
  | refuse {log : List (Event α)} {queue : List α} (a : α) :
      Trace log false queue → Trace (.refused a :: log) false queue
  | take {log : List (Event α)} {a : α} {queue : List α} :
      Trace log true (a :: queue) → Trace (.taken a :: log) true queue
  | close {log : List (Event α)} {isOpen : Bool} {queue : List α} :
      Trace log isOpen queue → Trace (.closed :: log) false []
  | reopen {log : List (Event α)} {isOpen : Bool} {queue : List α} :
      Trace log isOpen queue → Trace (.opened :: log) true queue

/-- Offers accepted since the last close, oldest first. -/
def acceptedSince : List (Event α) → List α
  | [] => []
  | .closed :: _ => []
  | .accepted a :: log => acceptedSince log ++ [a]
  | .refused _ :: log | .taken _ :: log | .opened :: log => acceptedSince log

/-- Offers taken since the last close, oldest first. -/
def takenSince : List (Event α) → List α
  | [] => []
  | .closed :: _ => []
  | .taken a :: log => takenSince log ++ [a]
  | .refused _ :: log | .accepted _ :: log | .opened :: log => takenSince log

/-- Every offer ever made, oldest first. -/
def offered : List (Event α) → List α
  | [] => []
  | .accepted a :: log | .refused a :: log => offered log ++ [a]
  | .taken _ :: log | .closed :: log | .opened :: log => offered log

/-- Every offer ever taken, oldest first. -/
def taken : List (Event α) → List α
  | [] => []
  | .taken a :: log => taken log ++ [a]
  | .accepted _ :: log | .refused _ :: log | .closed :: log | .opened :: log => taken log

/-- Offers refused at a closed gate and offers flushed by a close: the accepted ones beyond
those taken by then. -/
def lost : List (Event α) → List α
  | [] => []
  | .refused a :: log => lost log ++ [a]
  | .closed :: log => lost log ++ (acceptedSince log).drop (takenSince log).length
  | .accepted _ :: log | .taken _ :: log | .opened :: log => lost log

variable {log : List (Event α)} {isOpen : Bool} {queue : List α}

/-- A closed gate is empty. -/
theorem Trace.queue_eq_nil_of_closed (trace : Trace log isOpen queue) (closed : isOpen = false) :
    queue = [] := by
  induction trace with
  | nil => rfl
  | accept a trace ih => cases closed
  | refuse a trace ih => exact ih closed
  | take trace ih => cases closed
  | close trace ih => rfl
  | reopen trace ih => cases closed

/-- **First in, first out.**  What was accepted since the last close is what was taken since
then followed by what is queued. -/
theorem Trace.accepted_eq (trace : Trace log isOpen queue) :
    acceptedSince log = takenSince log ++ queue := by
  induction trace with
  | nil => rfl
  | accept a trace ih => simp only [acceptedSince, takenSince, ih, List.append_assoc]
  | refuse a trace ih => exact ih
  | take trace ih => simp only [acceptedSince, takenSince, ih, List.append_assoc,
      List.singleton_append]
  | close trace ih => rfl
  | reopen trace ih => exact ih

/-- The offers queued when the gate closes are exactly those the close loses. -/
theorem Trace.lost_close (trace : Trace log isOpen queue) :
    lost (.closed :: log) = lost log ++ queue := by
  simp only [lost, trace.accepted_eq, List.drop_left]

/-- Every offer is taken, lost or still queued, and only one of these. -/
theorem Trace.offered_perm (trace : Trace log isOpen queue) :
    List.Perm (offered log) (taken log ++ (lost log ++ queue)) := by
  induction trace with
  | nil => exact List.Perm.refl _
  | @accept log queue a trace ih =>
      simp only [offered, taken, lost, ← List.append_assoc] at ih ⊢
      exact ih.append_right [a]
  | @refuse log queue a trace ih =>
      have empty : queue = [] := trace.queue_eq_nil_of_closed rfl
      subst empty
      simp only [offered, taken, lost, List.append_nil, ← List.append_assoc] at ih ⊢
      exact ih.append_right [a]
  | @take log a queue trace ih =>
      simp only [offered, taken, lost, List.append_assoc, List.singleton_append]
      exact ih.trans (List.Perm.append_left _ List.perm_middle)
  | close trace ih =>
      rw [trace.lost_close, List.append_nil]
      simpa only [offered, taken] using ih
  | reopen trace ih => exact ih

/-- The takes, followed by the queue, keep the order of the offers and repeat none. -/
theorem Trace.taken_append_queue_sublist (trace : Trace log isOpen queue) :
    (taken log ++ queue).Sublist (offered log) := by
  induction trace with
  | nil => exact List.Sublist.refl _
  | accept a trace ih =>
      simp only [offered, taken, ← List.append_assoc]
      exact ih.append_right [a]
  | refuse a trace ih => exact ih.trans (List.sublist_append_left _ _)
  | take trace ih => simpa only [offered, taken, List.append_assoc, List.singleton_append] using ih
  | close trace ih =>
      simp only [offered, taken, List.append_nil]
      exact (List.sublist_append_left _ _).trans ih
  | reopen trace ih => exact ih

theorem Trace.taken_sublist (trace : Trace log isOpen queue) :
    (taken log).Sublist (offered log) :=
  (List.sublist_append_left _ _).trans trace.taken_append_queue_sublist

/-- When no offer is made twice, a lost offer is never taken. -/
theorem Trace.not_taken_of_lost (trace : Trace log isOpen queue) (distinct : (offered log).Nodup)
    {a : α} (isLost : a ∈ lost log) : a ∉ taken log := by
  have split : (taken log ++ (lost log ++ queue)).Nodup := trace.offered_perm.nodup_iff.mp distinct
  intro isTaken
  exact List.disjoint_of_nodup_append split isTaken (List.mem_append_left _ isLost)

theorem mem_lost_of_refused {a : α} (isRefused : .refused a ∈ log) : a ∈ lost log := by
  induction log with
  | nil => cases isRefused
  | cons event log ih =>
      cases event with
      | refused b =>
          rcases List.mem_cons.mp isRefused with same | older
          · cases same
            exact List.mem_append_right _ (List.mem_singleton.mpr rfl)
          · exact List.mem_append_left _ (ih older)
      | closed => exact List.mem_append_left _ (ih (by simpa using isRefused))
      | accepted b => exact ih (by simpa using isRefused)
      | taken b => exact ih (by simpa using isRefused)
      | opened => exact ih (by simpa using isRefused)

/-- What is lost stays lost. -/
theorem lost_mono {newer : List (Event α)} (extended : log <:+ newer) : lost log ⊆ lost newer := by
  induction newer with
  | nil => rw [List.suffix_nil.mp extended]; exact List.Subset.refl _
  | cons event newer ih =>
      rcases List.suffix_cons_iff.mp extended with rfl | deeper
      · exact List.Subset.refl _
      · have kept := ih deeper
        cases event with
        | refused b => exact fun a member => List.mem_append_left _ (kept member)
        | closed => exact fun a member => List.mem_append_left _ (kept member)
        | accepted b => exact kept
        | taken b => exact kept
        | opened => exact kept

theorem takenSince_subset (log : List (Event α)) : takenSince log ⊆ taken log := by
  induction log with
  | nil => exact List.Subset.refl _
  | cons event log ih =>
      cases event with
      | taken a =>
          exact List.append_subset.mpr ⟨List.Subset.trans ih (List.subset_append_left _ _),
            List.subset_append_right _ _⟩
      | closed => exact List.nil_subset _
      | accepted a => exact ih
      | refused a => exact ih
      | opened => exact ih

/-- What was taken since the last close was accepted since then. -/
theorem Trace.takenSince_of_accepted (trace : Trace log isOpen queue) :
    takenSince log <+: acceptedSince log :=
  ⟨queue, trace.accepted_eq.symm⟩

/-! ## Between two moments

A later log is a newer part before the log of an earlier moment. -/

section Later

variable {newer older : List (Event α)} {before : Bool} {earlier later : List α}

theorem acceptedSince_append (unclosed : .closed ∉ newer) :
    acceptedSince (newer ++ older) = acceptedSince older ++ acceptedSince newer := by
  induction newer with
  | nil => simp only [List.nil_append, acceptedSince, List.append_nil]
  | cons event newer ih =>
      rw [List.mem_cons, not_or] at unclosed
      have rest := ih unclosed.2
      cases event with
      | accepted a => simp only [List.cons_append, acceptedSince, rest, List.append_assoc]
      | closed => exact absurd rfl unclosed.1
      | refused a => exact rest
      | taken a => exact rest
      | opened => exact rest

theorem takenSince_append (unclosed : .closed ∉ newer) :
    takenSince (newer ++ older) = takenSince older ++ taken newer := by
  induction newer with
  | nil => simp only [List.nil_append, taken, List.append_nil]
  | cons event newer ih =>
      rw [List.mem_cons, not_or] at unclosed
      have rest := ih unclosed.2
      cases event with
      | taken a => simp only [List.cons_append, takenSince, taken, rest, List.append_assoc]
      | closed => exact absurd rfl unclosed.1
      | refused a => exact rest
      | accepted a => exact rest
      | opened => exact rest

theorem acceptedSince_append_of_closed (closed : .closed ∈ newer) :
    acceptedSince (newer ++ older) = acceptedSince newer := by
  induction newer with
  | nil => cases closed
  | cons event newer ih =>
      cases event with
      | closed => rfl
      | accepted a =>
          have rest := ih (by simpa using closed)
          simp only [List.cons_append, acceptedSince, rest]
      | refused a => exact ih (by simpa using closed)
      | taken a => exact ih (by simpa using closed)
      | opened => exact ih (by simpa using closed)

theorem offered_append : offered (newer ++ older) = offered older ++ offered newer := by
  induction newer with
  | nil => simp only [List.nil_append, offered, List.append_nil]
  | cons event newer ih =>
      cases event with
      | accepted a | refused a =>
          simp only [List.cons_append, offered, ih, List.append_assoc]
      | taken a | closed | opened => exact ih

theorem acceptedSince_subset (log : List (Event α)) : acceptedSince log ⊆ offered log := by
  induction log with
  | nil => exact List.Subset.refl _
  | cons event log ih =>
      cases event with
      | accepted a =>
          exact List.append_subset.mpr ⟨List.Subset.trans ih (List.subset_append_left _ _),
            List.subset_append_right _ _⟩
      | refused a => exact List.Subset.trans ih (List.subset_append_left _ _)
      | closed => exact List.nil_subset _
      | taken a => exact ih
      | opened => exact ih

/-- While the gate is not closed, what is queued at first and accepted meanwhile is what is taken
meanwhile and queued at last. -/
theorem Trace.queue_append (first : Trace older before earlier)
    (last : Trace (newer ++ older) isOpen later) (unclosed : .closed ∉ newer) :
    earlier ++ acceptedSince newer = taken newer ++ later := by
  have whole := last.accepted_eq
  rw [acceptedSince_append unclosed, takenSince_append unclosed, first.accepted_eq,
    List.append_assoc, List.append_assoc] at whole
  exact List.append_cancel_left whole

theorem taken_append : taken (newer ++ older) = taken older ++ taken newer := by
  induction newer with
  | nil => simp only [List.nil_append, taken, List.append_nil]
  | cons event newer ih =>
      cases event with
      | taken a => simp only [List.cons_append, taken, ih, List.append_assoc]
      | accepted a | refused a | closed | opened => exact ih

/-- A gate that is open and not closed since is still open. -/
theorem Trace.isOpen_of_unclosed (last : Trace (newer ++ older) isOpen later)
    (first : Trace older true earlier) (unclosed : .closed ∉ newer) : isOpen = true := by
  induction newer generalizing isOpen later with
  | nil =>
      cases last with
      | nil => cases first
      | refuse a trace => cases first
      | close trace => cases first
      | accept | take | reopen => rfl
  | cons event newer ih =>
      rw [List.mem_cons, not_or] at unclosed
      cases last with
      | refuse a trace => exact ih trace unclosed.2
      | close trace => exact absurd rfl unclosed.1
      | accept | take | reopen => rfl

/-- Offers alone, accepted or refused. -/
def OnlyOffers (newer : List (Event α)) : Prop :=
  ∀ event ∈ newer, ∃ a, event = .accepted a ∨ event = .refused a

theorem OnlyOffers.unclosed (offers : OnlyOffers newer) : .closed ∉ newer := by
  intro member
  obtain ⟨a, same⟩ := offers _ member
  rcases same with same | same <;> cases same

theorem OnlyOffers.taken_eq_nil (offers : OnlyOffers newer) : taken newer = [] := by
  induction newer with
  | nil => rfl
  | cons event newer ih =>
      obtain ⟨a, same⟩ := offers event List.mem_cons_self
      have rest := ih fun other member => offers other (List.mem_cons_of_mem _ member)
      rcases same with rfl | rfl <;> exact rest

/-- What is queued at first was offered by then. -/
theorem Trace.queue_subset (trace : Trace log isOpen queue) : queue ⊆ offered log :=
  fun _ member => trace.taken_append_queue_sublist.subset (List.mem_append_right _ member)

/-- The front of the queue was queued at an earlier moment exactly when the gate was not closed
since and fewer offers were taken since than were queued then. -/
theorem Trace.front_mem_iff {a : α} (first : Trace older before earlier)
    (last : Trace (newer ++ older) isOpen (a :: later))
    (distinct : (offered (newer ++ older)).Nodup) :
    a ∈ earlier ↔ .closed ∉ newer ∧ (taken newer).length < earlier.length := by
  rw [offered_append] at distinct
  have separate := List.disjoint_of_nodup_append distinct
  have later_of_accepted : a ∈ acceptedSince newer → a ∉ earlier := fun accepted queued =>
    separate (first.queue_subset queued) (acceptedSince_subset newer accepted)
  by_cases closed : .closed ∈ newer
  · refine iff_of_false (later_of_accepted ?_) fun unclosed => unclosed.1 closed
    rw [← acceptedSince_append_of_closed closed, last.accepted_eq]
    exact List.mem_append_right _ List.mem_cons_self
  · have split := first.queue_append last closed
    rcases List.append_eq_append_iff.mp split with ⟨gap, before, after⟩ | ⟨gap, before, after⟩
    · -- every offer queued at first has been taken
      refine iff_of_false (later_of_accepted ?_) fun few => ?_
      · rw [after]
        exact List.mem_append_right _ List.mem_cons_self
      · have length := congrArg List.length before
        rw [List.length_append] at length
        omega
    · cases gap with
      | nil =>
          refine iff_of_false (later_of_accepted ?_) fun few => ?_
          · rw [← List.nil_append (acceptedSince newer), ← after]
            exact List.mem_cons_self
          · rw [before, List.append_nil] at few
            omega
      | cons b gap =>
          obtain ⟨rfl, _⟩ := List.cons.inj after
          refine iff_of_true ?_ ⟨closed, ?_⟩
          · rw [before]
            exact List.mem_append_right _ List.mem_cons_self
          · rw [before, List.length_append, List.length_cons]
            omega

end Later

end Gate
