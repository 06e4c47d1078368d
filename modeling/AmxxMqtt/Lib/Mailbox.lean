import Mathlib.Logic.Function.Basic
import Mathlib.Data.List.Sublists
import AmxxMqtt.Lib.Refinement

/-!
# A mailbox

Members post letters to their own subscribers.  A letter waits in the mailbox, under its member,
until it is delivered to the route that the member's subscription of its kind names then; one that
finds no route, because the member never subscribed or has left, is dropped.  A closed mailbox
loses the letters in it and those posted.

Every act shows, so that a run is what it shows (`map_act_observed`): nobody subscribes, joins or
leaves unseen between two deliveries.  Members are identities: one that has left does not come
back, so nothing of it is delivered from then on (`Gone.silent`).  `deliveries_sublist` is first
in, first out and at most once.

Nothing here mentions a program.
-/

namespace Mailbox

variable {ι κ ρ μ : Type*}

structure Letter (ι κ μ : Type*) where
  sender : ι
  kind : κ
  body : μ
  deriving DecidableEq

structure Box (ι κ ρ μ : Type*) where
  isOpen : Bool
  pending : List (Letter ι κ μ)
  /-- the subscriptions of each member -/
  routes : ι → Option (κ → Option ρ)
  /-- everyone who ever was a member -/
  former : List ι

inductive Act (ι κ ρ μ : Type*) where
  | opened
  | closed
  | enroll (member : ι)
  | retire (member : ι)
  | subscribe (member : ι) (kind : κ) (route : Option ρ)
  | post (letter : Letter ι κ μ)
  | deliver

/-- What the outside sees of an act; of a delivery, the letter and where it went. -/
inductive Sight (ι κ ρ μ : Type*) where
  | opened
  | closed
  | enrolled (member : ι)
  | retired (member : ι)
  | subscribed (member : ι) (kind : κ) (route : Option ρ)
  | posted (letter : Letter ι κ μ)
  | delivered (letter : Letter ι κ μ) (route : ρ)
  | dropped (letter : Letter ι κ μ)
  deriving DecidableEq

namespace Box

def initial : Box ι κ ρ μ := ⟨false, [], fun _ => none, []⟩

/-- The route a letter has now. -/
def route (box : Box ι κ ρ μ) (letter : Letter ι κ μ) : Option ρ :=
  (box.routes letter.sender).bind fun routes => routes letter.kind

variable [DecidableEq ι] [DecidableEq κ]

def step (box : Box ι κ ρ μ) : Act ι κ ρ μ → Option (Box ι κ ρ μ)
  | .opened => some { box with isOpen := true }
  | .closed => some { box with isOpen := false, pending := [] }
  | .enroll member =>
      if member ∈ box.former then none
      else some { box with
        routes := Function.update box.routes member (some (fun _ => none))
        former := member :: box.former }
  | .retire member => some { box with routes := Function.update box.routes member none }
  | .subscribe member kind route =>
      (box.routes member).map fun routes =>
        { box with
          routes := Function.update box.routes member
            (some (Function.update routes kind route)) }
  | .post letter =>
      some (if box.isOpen then { box with pending := box.pending ++ [letter] } else box)
  | .deliver =>
      match box.pending with
      | [] => none
      | _ :: rest => some { box with pending := rest }

def shows (box : Box ι κ ρ μ) : Act ι κ ρ μ → List (Sight ι κ ρ μ)
  | .opened => [.opened]
  | .closed => [.closed]
  | .enroll member => [.enrolled member]
  | .retire member => [.retired member]
  | .subscribe member kind route => [.subscribed member kind route]
  | .post letter => [.posted letter]
  | .deliver =>
      box.pending.head?.toList.map fun letter =>
        (box.route letter).elim (.dropped letter) (.delivered letter)

end Box

section Sights

def Sight.post? : Sight ι κ ρ μ → Option (Letter ι κ μ)
  | .posted letter => some letter
  | _ => none

def Sight.delivery? : Sight ι κ ρ μ → Option (Letter ι κ μ)
  | .delivered letter _ => some letter
  | _ => none

/-- The act that shows this. -/
def Sight.act : Sight ι κ ρ μ → Act ι κ ρ μ
  | .opened => .opened
  | .closed => .closed
  | .enrolled member => .enroll member
  | .retired member => .retire member
  | .subscribed member kind route => .subscribe member kind route
  | .posted letter => .post letter
  | .delivered _ _ | .dropped _ => .deliver

/-- The letters posted. -/
def posts (sights : List (Sight ι κ ρ μ)) : List (Letter ι κ μ) :=
  sights.filterMap Sight.post?

def deliveries (sights : List (Sight ι κ ρ μ)) : List (Letter ι κ μ) :=
  sights.filterMap Sight.delivery?

theorem posts_append (first second : List (Sight ι κ ρ μ)) :
    posts (first ++ second) = posts first ++ posts second :=
  List.filterMap_append

theorem deliveries_append (first second : List (Sight ι κ ρ μ)) :
    deliveries (first ++ second) = deliveries first ++ deliveries second :=
  List.filterMap_append

end Sights

variable [DecidableEq ι] [DecidableEq κ] {box after : Box ι κ ρ μ} {acts : List (Act ι κ ρ μ)}

open Refinement

/-- An act that is possible shows itself, and nothing else. -/
theorem map_act_shows {act : Act ι κ ρ μ} (taken : box.step act = some after) :
    (box.shows act).map Sight.act = [act] := by
  cases act with
  | deliver =>
      cases waiting : box.pending with
      | nil =>
          simp only [Box.step, waiting] at taken
          cases taken
      | cons letter rest =>
          cases found : box.route letter <;> simp [Box.shows, waiting, found, Sight.act]
  | _ => rfl

/-- **A run is what it shows.** -/
theorem map_act_observed (ran : Transition.run Box.step box acts = some after) :
    (observed Box.step Box.shows box acts).map Sight.act = acts := by
  induction acts generalizing box with
  | nil => rfl
  | cons act acts ih =>
      obtain ⟨next, taken, rest⟩ := Transition.run_cons.mp ran
      rw [observed_cons taken, List.map_append, map_act_shows taken, ih rest]
      rfl

/-- One step takes letters from the front of the mailbox and puts letters at its back. -/
theorem step_sublist {act : Act ι κ ρ μ} (taken : box.step act = some after) :
    (deliveries (box.shows act) ++ after.pending).Sublist
      (box.pending ++ posts (box.shows act)) := by
  cases act with
  | closed =>
      cases taken
      exact List.nil_sublist _
  | opened | retire =>
      cases taken
      simp [Box.shows, deliveries, posts, Sight.post?, Sight.delivery?]
  | enroll member =>
      simp only [Box.step] at taken
      split at taken
      · cases taken
      · cases taken
        simp [Box.shows, deliveries, posts, Sight.post?, Sight.delivery?]
  | subscribe member kind route =>
      obtain ⟨routes, _, rfl⟩ := Option.map_eq_some_iff.mp taken
      simp [Box.shows, deliveries, posts, Sight.post?, Sight.delivery?]
  | post letter =>
      cases taken
      split <;> simp [Box.shows, deliveries, posts, Sight.post?, Sight.delivery?]
  | deliver =>
      cases waiting : box.pending with
      | nil =>
          simp only [Box.step, waiting] at taken
          cases taken
      | cons letter rest =>
          simp only [Box.step, waiting] at taken
          cases taken
          cases found : box.route letter <;>
            simp [Box.shows, waiting, found, deliveries, posts, Sight.post?, Sight.delivery?]

/-- **First in, first out, and at most once**: what a run delivers, followed by what it leaves, is
among what it found and what was posted, in that order. -/
theorem deliveries_sublist (ran : Transition.run Box.step box acts = some after) :
    (deliveries (observed Box.step Box.shows box acts) ++ after.pending).Sublist
      (box.pending ++ posts (observed Box.step Box.shows box acts)) := by
  induction acts generalizing box with
  | nil =>
      cases ran
      simp [deliveries, posts]
  | cons act acts ih =>
      obtain ⟨next, taken, rest⟩ := Transition.run_cons.mp ran
      have first := (step_sublist taken).append_right
        (posts (observed Box.step Box.shows next acts))
      have later := (ih rest).append_left (deliveries (box.shows act))
      rw [observed_cons taken, deliveries_append, posts_append]
      simp only [List.append_assoc] at first later ⊢
      exact later.trans first

/-- Members leave, one after the other. -/
theorem run_retire (members : List ι) : Transition.run Box.step box (members.map .retire) =
    some { box with routes := fun member =>
      if member ∈ members then none else box.routes member } := by
  induction members generalizing box with
  | nil => simp
  | cons first members ih =>
      refine Transition.run_cons.mpr ⟨_, rfl, ih.trans (congrArg some ?_)⟩
      congr 1
      funext member
      by_cases same : member = first
      · simp [same]
      · simp [same]

theorem observed_retire (members : List ι) :
    observed Box.step Box.shows box (members.map .retire) = members.map .retired := by
  induction members generalizing box with
  | nil => rfl
  | cons first members ih => exact (observed_cons rfl).trans (congrArg (_ :: ·) ih)

/-- The member has left. -/
def Gone (box : Box ι κ ρ μ) (member : ι) : Prop :=
  box.routes member = none ∧ member ∈ box.former

section Gone

variable {member : ι}

theorem Gone.step (gone : Gone box member) {act : Act ι κ ρ μ}
    (taken : box.step act = some after) : Gone after member := by
  rcases gone with ⟨left, known⟩
  cases act with
  | opened | closed =>
      cases taken
      exact ⟨left, known⟩
  | enroll other =>
      simp only [Box.step] at taken
      split at taken
      · cases taken
      · rename_i fresh
        cases taken
        have different : member ≠ other := fun same => fresh (same ▸ known)
        exact ⟨(Function.update_of_ne different _ _).trans left, List.mem_cons_of_mem _ known⟩
  | retire other =>
      cases taken
      refine ⟨?_, known⟩
      by_cases same : member = other
      · subst same
        exact Function.update_self ..
      · exact (Function.update_of_ne same _ _).trans left
  | subscribe other kind route =>
      obtain ⟨routes, found, rfl⟩ := Option.map_eq_some_iff.mp taken
      have different : member ≠ other := by
        intro same
        cases left.symm.trans (same ▸ found)
      exact ⟨(Function.update_of_ne different _ _).trans left, known⟩
  | post letter =>
      cases taken
      split <;> exact ⟨left, known⟩
  | deliver =>
      cases waiting : box.pending with
      | nil =>
          simp only [Box.step, waiting] at taken
          cases taken
      | cons letter rest =>
          simp only [Box.step, waiting] at taken
          cases taken
          exact ⟨left, known⟩

omit [DecidableEq ι] [DecidableEq κ] in
theorem Gone.shows (gone : Gone box member) {act : Act ι κ ρ μ} {letter : Letter ι κ μ} {route : ρ}
    (shown : .delivered letter route ∈ box.shows act) : letter.sender ≠ member := by
  cases act with
  | deliver =>
      intro own
      obtain ⟨first, _, found⟩ := List.mem_map.mp shown
      cases routed : box.route first with
      | none =>
          rw [routed] at found
          cases found
      | some _ =>
          rw [routed] at found
          cases found
          rw [Box.route, own, gone.1] at routed
          cases routed
  | _ => cases List.mem_singleton.mp shown

/-- **Nothing is delivered of a member that has left**, whatever happens afterwards. -/
theorem Gone.silent (gone : Gone box member)
    (ran : Transition.run Box.step box acts = some after) :
    ∀ letter ∈ deliveries (observed Box.step Box.shows box acts), letter.sender ≠ member := by
  induction acts generalizing box with
  | nil => exact fun _ delivered => absurd delivered List.not_mem_nil
  | cons act acts ih =>
      obtain ⟨next, taken, rest⟩ := Transition.run_cons.mp ran
      intro letter delivered
      rw [observed_cons taken, deliveries_append] at delivered
      rcases List.mem_append.mp delivered with now | later
      · obtain ⟨sight, shown, is⟩ := List.mem_filterMap.mp now
        cases sight with
        | delivered _ route =>
            cases is
            exact gone.shows shown
        | _ => cases is
      · exact ih (gone.step taken) rest letter later

/-- A member that has left stays away. -/
theorem Gone.run (gone : Gone box member)
    (ran : Transition.run Box.step box acts = some after) : Gone after member := by
  let inv := fun box : Box ι κ ρ μ => Gone box member
  have kept : ∀ {box : Box ι κ ρ μ} {act after}, True → box.step act = some after →
      inv box → inv after := fun _ taken gone => Gone.step gone taken
  have last : inv after := Transition.run_invariant kept ran (fun _ _ => True.intro) gone
  exact last

end Gone

end Mailbox
