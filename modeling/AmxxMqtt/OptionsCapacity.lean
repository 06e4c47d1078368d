import Mathlib.Data.Int.ConditionallyCompleteOrder
import Mathlib.Order.ConditionallyCompleteLattice.Basic
import Mathlib.Data.Int.Interval
import AmxxMqtt.ConnectOptionMgr
import AmxxMqtt.Lib.Transition

/-!
# The capacity of the connect options

Runs of the manager in which any `make` may fail.  `make` reserves its number before it builds
the object, so a failure in between leaves a number used that stands for nothing: the used
numbers stay those of the live objects exactly along the runs in which that never happens.
-/

namespace AmxxMqtt

/-- One call of the manager. -/
inductive OptionsCall where
  | make (failure : Option (OptionsStage × Thrown))
  | getOptions (index : Int)
  | destroy (index : Int)
  | reset
  deriving DecidableEq

namespace ConnectOptionMgr

variable {P : PahoOptions} {mgr t : ConnectOptionMgr P}

def step (mgr : ConnectOptionMgr P) : OptionsCall → Option (ConnectOptionMgr P)
  | .make failure => some (mgr.make failure).2
  | .getOptions index => some (mgr.getOptions index).2
  | .destroy index => some (mgr.destroy index)
  | .reset => some mgr.reset

/-- The numbers that stand for an object. -/
def live (mgr : ConnectOptionMgr P) : Finset Int :=
  mgr.options.keys.toFinset.filter fun index => (mgr.object index).isSome

theorem mem_live_iff {index : Int} : index ∈ mgr.live ↔ (mgr.object index).isSome := by
  simp only [live, Finset.mem_filter, List.mem_toFinset, and_iff_right_iff_imp]
  intro stands
  obtain ⟨option, held⟩ := Option.isSome_iff_exists.mp stands
  exact mem_of_object held

/-- This many calls of `make` in a row succeed, when nothing they build throws. -/
def CanMake (mgr : ConnectOptionMgr P) : Nat → Prop
  | 0 => True
  | count + 1 =>
      (∃ index, (mgr.make none).1 = .ok index) ∧ (mgr.make none).2.CanMake count

/-- No number is lost: the used ones are those of the live objects, each can be given back, and
what they leave of the capacity can still be made. -/
structure NoneLost (mgr : ConnectOptionMgr P) : Prop where
  used : mgr.indexUsed = mgr.live
  released : ∀ index ∈ mgr.indexUsed,
    (mgr.destroy index).indexUsed = mgr.indexUsed.erase index ∧
      (mgr.destroy index).live = mgr.live.erase index
  capacity : ∀ count, mgr.CanMake count ↔ count + mgr.live.card ≤ 10000

/-- A `make` that throws leaves the used numbers and the objects as they are. -/
def ConsumesNothing (mgr : ConnectOptionMgr P) (call : OptionsCall) : Prop :=
  ∀ failure thrown, call = .make failure → (mgr.make failure).1 = .error thrown →
    (mgr.make failure).2.indexUsed = mgr.indexUsed ∧
      ∀ index, (mgr.make failure).2.object index = mgr.object index

/-- A `make` that fails building its object, after a free number was reserved for it. -/
def Loses (mgr : ConnectOptionMgr P) (call : OptionsCall) : Prop :=
  ∃ failed, call = .make (some failed) ∧ mgr.freeIndex.isSome

instance decidableLoses (mgr : ConnectOptionMgr P) : ∀ call, Decidable (mgr.Loses call)
  | .make (some failed) =>
      decidable_of_iff (mgr.freeIndex.isSome = true) (by simp [Loses])
  | .make none | .getOptions _ | .destroy _ | .reset => isFalse (by simp [Loses])

/-! ## What every call keeps -/

theorem not_loses {call : OptionsCall} (other : ∀ failure, call ≠ .make failure) :
    ¬ mgr.Loses call := by
  intro loses
  obtain ⟨failed, same, _⟩ := loses
  exact other _ same

/-- The used numbers are possible ones, and every live object has one. -/
structure Reserved (mgr : ConnectOptionMgr P) : Prop where
  bounds : mgr.indexUsed ⊆ Finset.Icc 1 10000
  live : mgr.live ⊆ mgr.indexUsed

theorem Reserved.initial : (initial : ConnectOptionMgr P).Reserved :=
  ⟨Finset.empty_subset _, Finset.Subset.refl _⟩

theorem live_getOptions (index : Int) : (mgr.getOptions index).2.live = mgr.live := by
  ext other
  rw [mem_live_iff, mem_live_iff, object_getOptions]

theorem live_destroy {index : Int} (present : index ∈ mgr.options) :
    (mgr.destroy index).live = mgr.live.erase index := by
  ext other
  rw [mem_live_iff, object_destroy present, Finset.mem_erase, mem_live_iff]
  split
  · rename_i same
    simp only [Option.isSome_none, Bool.false_eq_true, same, ne_eq, not_true_eq_false, false_and]
  · rename_i different
    simp only [different, ne_eq, not_false_eq_true, true_and]

theorem live_insert (indexUsed : Finset Int) (index : Int) (option : ConnectOption P) :
    (⟨mgr.options.insert index (some option), indexUsed⟩ : ConnectOptionMgr P).live =
      insert index mgr.live := by
  ext other
  rw [mem_live_iff, object_insert, Finset.mem_insert, mem_live_iff]
  split
  · rename_i same
    exact iff_of_true rfl (.inl same)
  · rename_i different
    exact (or_iff_right different).symm

theorem freeIndex_mem {index : Int} (found : mgr.freeIndex = some index) :
    index ∉ mgr.indexUsed ∧ index ∈ Finset.Icc (1 : Int) 10000 := by
  have bounds := freeIndex_eq_some found
  exact ⟨bounds.1, Finset.mem_Icc.mpr bounds.2⟩

/-- A call loses a number exactly when it leaves one used that stands for nothing. -/
theorem MakeResult.reserved {failure : Option (OptionsStage × Thrown)}
    {result : Except Thrown Int × ConnectOptionMgr P} (made : MakeResult failure mgr result)
    (reserved : mgr.Reserved) :
    result.2.Reserved ∧ (mgr.indexUsed = mgr.live →
      (result.2.indexUsed = result.2.live ↔ ¬ mgr.Loses (.make failure))) := by
  cases made with
  | full full =>
      refine ⟨reserved, fun used => iff_of_true used ?_⟩
      intro lost
      rcases lost with ⟨_, _, free⟩
      rw [full] at free
      cases free
  | @failed index stage thrown found failure =>
      obtain ⟨free, bounds⟩ := freeIndex_mem found
      refine ⟨⟨Finset.insert_subset bounds reserved.bounds,
        reserved.live.trans (Finset.subset_insert _ _)⟩, fun used => iff_of_false ?_ ?_⟩
      · intro same
        have stands : index ∈ mgr.live := same ▸ Finset.mem_insert_self index mgr.indexUsed
        exact free (reserved.live stands)
      · exact not_not_intro ⟨_, by rw [failure], by rw [found, Option.isSome_some]⟩
  | @made index found failure =>
      obtain ⟨free, bounds⟩ := freeIndex_mem found
      refine ⟨⟨Finset.insert_subset bounds reserved.bounds, ?_⟩,
        fun used => iff_of_true ?_ ?_⟩
      · rw [live_insert]
        exact Finset.insert_subset_insert _ reserved.live
      · rw [live_insert]
        exact congrArg (insert index) used
      · intro lost
        rcases lost with ⟨failed, same, _⟩
        rw [failure] at same
        cases same

theorem Reserved.destroy (reserved : mgr.Reserved) (index : Int) :
    (mgr.destroy index).Reserved ∧ (mgr.indexUsed = mgr.live →
      (mgr.destroy index).indexUsed = (mgr.destroy index).live) := by
  by_cases present : index ∈ mgr.options
  · have live := live_destroy present
    rw [destroy_of_mem present] at live ⊢
    refine ⟨⟨(Finset.erase_subset _ _).trans reserved.bounds, ?_⟩, fun used => ?_⟩
    · rw [live]
      exact Finset.erase_subset_erase _ reserved.live
    · rw [live]
      exact congrArg (Finset.erase · index) used
  · have same : mgr.destroy index = mgr := by
      simp only [ConnectOptionMgr.destroy, AList.lookup_eq_none.mpr present]
    rw [same]
    exact ⟨reserved, id⟩

theorem step_reserved {call : OptionsCall} (taken : mgr.step call = some t)
    (reserved : mgr.Reserved) :
    t.Reserved ∧ (mgr.indexUsed = mgr.live → (t.indexUsed = t.live ↔ ¬ mgr.Loses call)) := by
  cases call with
  | make failure =>
      cases taken
      exact (make_cases failure mgr).reserved reserved
  | getOptions index =>
      cases taken
      have keeps : ¬ mgr.Loses (.getOptions index) := not_loses (by simp)
      rw [live_getOptions, indexUsed_getOptions]
      refine ⟨⟨?_, ?_⟩, fun used => iff_of_true used keeps⟩
      · rw [indexUsed_getOptions]
        exact reserved.bounds
      · rw [live_getOptions, indexUsed_getOptions]
        exact reserved.live
  | destroy index =>
      cases taken
      obtain ⟨still, same⟩ := reserved.destroy index
      exact ⟨still, fun used => iff_of_true (same used) (not_loses (by simp))⟩
  | reset =>
      cases taken
      exact ⟨.initial, fun _ => iff_of_true rfl (not_loses (by simp))⟩

/-! ## Capacity -/

theorem Reserved.freeIndex_eq_none_iff (reserved : mgr.Reserved) :
    mgr.freeIndex = none ↔ mgr.indexUsed.card = 10000 := by
  have size : (Finset.Icc (1 : Int) 10000).card = 10000 := by simp
  have all : mgr.freeIndex = none ↔ Finset.Icc (1 : Int) 10000 ⊆ mgr.indexUsed := by
    rw [freeIndex_eq_none]
    exact ⟨fun used index member => used index (Finset.mem_Icc.mp member).1
      (Finset.mem_Icc.mp member).2, fun used index lower upper =>
      used (Finset.mem_Icc.mpr ⟨lower, upper⟩)⟩
  rw [all]
  constructor
  · intro used
    rw [Finset.Subset.antisymm reserved.bounds used, size]
  · intro full
    exact (Finset.eq_of_subset_of_card_le reserved.bounds (by rw [size, full])).symm.subset

/-- What can still be made is what the used numbers leave. -/
theorem Reserved.canMake_iff (reserved : mgr.Reserved) (count : Nat) :
    mgr.CanMake count ↔ count + mgr.indexUsed.card ≤ 10000 := by
  induction count generalizing mgr with
  | zero =>
      have most := Finset.card_le_card reserved.bounds
      rw [Int.card_Icc] at most
      exact iff_of_true True.intro (by omega)
  | succ count ih =>
      have taken : mgr.step (.make none) = some (mgr.make none).2 := rfl
      have next := (step_reserved taken reserved).1
      have free := reserved.freeIndex_eq_none_iff
      have cases := make_cases none mgr
      rw [CanMake, ih next]
      generalize mgr.make none = result at cases
      cases cases with
      | full full =>
          refine iff_of_false ?_ ?_
          · intro both
            rcases both with ⟨⟨index, made⟩, _⟩
            cases made
          · rw [free.mp full]
            omega
      | failed found failure => cases failure
      | @made index found _ =>
          have unused := (freeIndex_mem found).1
          simp only [Except.ok.injEq, exists_eq', true_and, Finset.card_insert_of_notMem unused]
          omega

/-- Nothing is lost exactly when the used numbers are the live ones. -/
theorem Reserved.noneLost_iff (reserved : mgr.Reserved) :
    mgr.NoneLost ↔ mgr.indexUsed = mgr.live := by
  refine ⟨NoneLost.used, fun used => ⟨used, fun index member => ?_, fun count => ?_⟩⟩
  · have stands := mem_live_iff.mp (used ▸ member)
    obtain ⟨option, held⟩ := Option.isSome_iff_exists.mp stands
    have present := mem_of_object held
    exact ⟨by rw [destroy_of_mem present], live_destroy present⟩
  · rw [reserved.canMake_iff, used]

/-! ## Runs -/

/-- A `make` that throws consumes something exactly when it loses a number. -/
theorem consumesNothing_iff {call : OptionsCall} :
    mgr.ConsumesNothing call ↔ ¬ mgr.Loses call := by
  constructor
  · intro nothing lost
    rcases lost with ⟨⟨stage, thrown⟩, rfl, free⟩
    obtain ⟨index, found⟩ := Option.isSome_iff_exists.mp free
    have cases := make_cases (some (stage, thrown)) mgr
    have same := nothing (some (stage, thrown))
    generalize mgr.make (some (stage, thrown)) = result at cases same
    cases cases with
    | full full => cases found.symm.trans full
    | @failed index _ _ found _ =>
        have used := (same _ rfl rfl).1
        exact (freeIndex_mem found).1 (used ▸ Finset.mem_insert_self index mgr.indexUsed)
    | made found failure => cases failure
  · rintro keeps failure thrown rfl threw
    have cases := make_cases failure mgr
    generalize mgr.make failure = result at cases threw
    cases cases with
    | full full => exact ⟨rfl, fun _ => rfl⟩
    | failed found failed =>
        exact absurd ⟨_, by rw [failed], by rw [found, Option.isSome_some]⟩ keeps
    | made found failure => cases threw

end ConnectOptionMgr

open ConnectOptionMgr in
/-- **Failed creation of connect options.**  Along a run of the manager, no number is lost in any
state and no `make` that throws consumes anything, if and only if no `make` fails building its
object after a free number was reserved for it. -/
theorem noneLost_always_iff {P : PahoOptions} {calls : List OptionsCall} {mgr : ConnectOptionMgr P}
    (ran : Transition.run step initial calls = some mgr) :
    Transition.Always step NoneLost (initial : ConnectOptionMgr P) calls ∧
        Transition.Allowed step ConsumesNothing (initial : ConnectOptionMgr P) calls ↔
      Transition.Allowed step (fun mgr call => ¬ mgr.Loses call)
        (initial : ConnectOptionMgr P) calls := by
  have consumes : (ConsumesNothing : ConnectOptionMgr P → OptionsCall → Prop) =
      fun mgr call => ¬ mgr.Loses call := by
    funext mgr call
    exact propext consumesNothing_iff
  have always : Transition.Always step NoneLost (initial : ConnectOptionMgr P) calls ↔
      Transition.Allowed step (fun mgr call => ¬ mgr.Loses call)
        (initial : ConnectOptionMgr P) calls := by
    refine Transition.always_iff_allowed (fun taken reserved => (step_reserved taken reserved).1)
      ?_ ran Reserved.initial (Reserved.initial.noneLost_iff.mpr rfl)
    intro before call after taken reserved none
    obtain ⟨later, kept⟩ := step_reserved taken reserved
    rw [later.noneLost_iff]
    exact kept none.used
  rw [consumes, always, and_self]

open ConnectOptionMgr in
/-- One `make` whose `new mqtt::connect_options` throws uses up the number 1. -/
theorem failed_make_loses :
    ¬ ∀ (calls : List OptionsCall) (mgr : ConnectOptionMgr .plain),
        Transition.run step initial calls = some mgr → mgr.NoneLost := by
  intro always
  have loses : (Transition.run step (initial : ConnectOptionMgr .plain)
      [.make (some (.connectOptions, .other))]).map (fun mgr => (mgr.indexUsed, mgr.live)) =
        some ({1}, ∅) := by decide +kernel
  obtain ⟨mgr, ran, state⟩ := Option.map_eq_some_iff.mp loses
  obtain ⟨used, live⟩ := Prod.mk.inj state
  have same := (always _ mgr ran).used
  rw [used, live] at same
  exact absurd same (by decide)

/-- Two objects made, an unknown number looked up, one object destroyed and its number made
again. -/
def recycledCalls : List OptionsCall :=
  [.make none, .make none, .getOptions 7, .destroy 1, .make none]

/-- Then a `make` whose `new mqtt::connect_options` throws, and another one. -/
def lossyCalls : List OptionsCall :=
  recycledCalls ++ [.make (some (.connectOptions, .other)), .make none]

open ConnectOptionMgr in
theorem noneLost_always_iff_recycled :
    ∃ mgr lossy : ConnectOptionMgr .plain,
      Transition.run step initial recycledCalls = some mgr ∧ mgr.live = {1, 2} ∧
        (Transition.Always step NoneLost (initial : ConnectOptionMgr .plain) recycledCalls ∧
          Transition.Allowed step ConsumesNothing (initial : ConnectOptionMgr .plain)
            recycledCalls) ∧
        Transition.run step initial lossyCalls = some lossy ∧ lossy.live = {1, 2, 4} ∧
        ¬ (Transition.Always step NoneLost (initial : ConnectOptionMgr .plain) lossyCalls ∧
          Transition.Allowed step ConsumesNothing (initial : ConnectOptionMgr .plain)
            lossyCalls) := by
  have recycled : (Transition.run step (initial : ConnectOptionMgr .plain) recycledCalls).map
      live = some {1, 2} := by decide +kernel
  have lost : (Transition.run step (initial : ConnectOptionMgr .plain) lossyCalls).map live =
      some {1, 2, 4} := by decide +kernel
  obtain ⟨mgr, ran, made⟩ := Option.map_eq_some_iff.mp recycled
  obtain ⟨lossy, ran', left⟩ := Option.map_eq_some_iff.mp lost
  exact ⟨mgr, lossy, ran, made, (noneLost_always_iff ran).mpr (by decide +kernel), ran', left,
    (noneLost_always_iff ran').not.mpr (by decide +kernel)⟩

end AmxxMqtt
