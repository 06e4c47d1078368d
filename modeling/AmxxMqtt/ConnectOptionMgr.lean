import Mathlib.Data.Finset.Insert
import Mathlib.Order.Interval.Finset.Nat
import AmxxMqtt.Lib.Table
import AmxxMqtt.Host

/-!
# `ConnectOptionMgr`

Connect-options objects by number.  Two containers hold the state: the table `m_options`, whose
entries can be null because `getOptions` looks up with `operator[]`, and the set `m_indexUsed`
the next free number is searched in.
-/

namespace AmxxMqtt

/-- The two objects a `ConnectOption` owns. -/
structure ConnectOption (P : PahoOptions) where
  option : P.Options
  properties : P.Properties

/-- A table entry is `none` where the source holds a null pointer. -/
structure ConnectOptionMgr (P : PahoOptions) where
  options : AList fun _ : Int => Option (ConnectOption P)
  indexUsed : Finset Int

namespace ConnectOptionMgr

variable {P : PahoOptions}

def initial : ConnectOptionMgr P := ⟨∅, ∅⟩

/-- `MAX_INDEX`. -/
def maxIndex : Nat := 10000

def noIndex : PahoException := ⟨0, "no index anymore"⟩

/-- The numbers `makeIndex` tries, in order. -/
def indexes : List Int :=
  (List.range' 1 maxIndex).map Int.ofNat

/-- The number the loop of `makeIndex` stops at. -/
def freeIndex (mgr : ConnectOptionMgr P) : Option Int :=
  indexes.find? fun index => index ∉ mgr.indexUsed

def makeIndex (mgr : ConnectOptionMgr P) : Except PahoException Int × ConnectOptionMgr P :=
  match mgr.freeIndex with
  | some index => (.ok index, { mgr with indexUsed := insert index mgr.indexUsed })
  | none => (.error noIndex, mgr)

/-- `failure` is the point at which building the object throws, if it does; whichever it is,
the number is already reserved. -/
def make (failure : Option (OptionsStage × Thrown)) (mgr : ConnectOptionMgr P) :
    Except Thrown Int × ConnectOptionMgr P :=
  match mgr.makeIndex with
  | (.error exception, mgr) => (.error (.mqtt exception), mgr)
  | (.ok index, mgr) =>
      if index ≠ 0 then
        match failure with
        | some (_, thrown) => (.error thrown, mgr)
        | none =>
            (.ok index,
              { mgr with options := mgr.options.insert index (some ⟨P.version5, P.noProperties⟩) })
      else (.ok 0, mgr)

/-- `m_options[index]`: looking up an unknown number inserts a null entry. -/
def getOptions (index : Int) (mgr : ConnectOptionMgr P) :
    Option (ConnectOption P) × ConnectOptionMgr P :=
  match mgr.options.lookup index with
  | some entry => (entry, mgr)
  | none => (none, { mgr with options := mgr.options.insert index none })

def destroy (index : Int) (mgr : ConnectOptionMgr P) : ConnectOptionMgr P :=
  match mgr.options.lookup index with
  | some _ =>
      { options := mgr.options.erase index, indexUsed := mgr.indexUsed.erase index }
  | none => mgr

def reset (_ : ConnectOptionMgr P) : ConnectOptionMgr P :=
  ⟨∅, ∅⟩

/-- Write through the pointer `getOptions` returned. -/
def setOption (index : Int) (option : ConnectOption P) (mgr : ConnectOptionMgr P) :
    ConnectOptionMgr P :=
  { mgr with options := mgr.options.insert index (some option) }

/-- The object a number stands for. -/
def object (mgr : ConnectOptionMgr P) (index : Int) : Option (ConnectOption P) :=
  (mgr.options.lookup index).join

theorem getOptions_fst (index : Int) (mgr : ConnectOptionMgr P) :
    (mgr.getOptions index).1 = mgr.object index := by
  unfold getOptions object
  cases mgr.options.lookup index <;> rfl

/-- A lookup changes the table exactly when the number has no entry. -/
theorem getOptions_snd_of_mem {mgr : ConnectOptionMgr P} {index : Int}
    (present : index ∈ mgr.options) : (mgr.getOptions index).2 = mgr := by
  obtain ⟨entry, found⟩ := Option.isSome_iff_exists.mp (AList.lookup_isSome.mpr present)
  simp only [getOptions, found]

theorem getOptions_snd_of_notMem {mgr : ConnectOptionMgr P} {index : Int}
    (absent : index ∉ mgr.options) :
    (mgr.getOptions index).2 = { mgr with options := mgr.options.insert index none } := by
  simp only [getOptions, AList.lookup_eq_none.mpr absent]

theorem getOptions_snd_eq_iff {mgr : ConnectOptionMgr P} {index : Int} :
    (mgr.getOptions index).2 = mgr ↔ index ∈ mgr.options := by
  refine ⟨fun same => ?_, getOptions_snd_of_mem⟩
  by_contra absent
  rw [getOptions_snd_of_notMem absent] at same
  have inserted : index ∈ mgr.options := by
    have := congrArg (fun m => index ∈ m.options) same
    simpa only [AList.mem_insert, true_or, eq_iff_iff, true_iff] using this
  exact absent inserted

theorem mem_of_object {mgr : ConnectOptionMgr P} {index : Int} {option : ConnectOption P}
    (live : mgr.object index = some option) : index ∈ mgr.options := by
  rw [object, Option.join_eq_some_iff] at live
  exact AList.lookup_isSome.mp (by rw [live]; rfl)

/-! ## What the operations do to the objects -/

theorem object_insert (options : AList fun _ : Int => Option (ConnectOption P))
    (indexUsed : Finset Int) (index other : Int) (entry : Option (ConnectOption P)) :
    (⟨options.insert index entry, indexUsed⟩ : ConnectOptionMgr P).object other =
      if other = index then entry
      else (⟨options, indexUsed⟩ : ConnectOptionMgr P).object other := by
  simp only [object, Table.lookup_insert_iff]
  split <;> rfl

/-- A lookup leaves every number its object. -/
theorem object_getOptions (index other : Int) (mgr : ConnectOptionMgr P) :
    (mgr.getOptions index).2.object other = mgr.object other := by
  by_cases present : index ∈ mgr.options
  · rw [getOptions_snd_of_mem present]
  · rw [getOptions_snd_of_notMem present, object_insert]
    split
    · rename_i same
      rw [object, same, AList.lookup_eq_none.mpr present]
      rfl
    · rfl

theorem indexUsed_getOptions (index : Int) (mgr : ConnectOptionMgr P) :
    (mgr.getOptions index).2.indexUsed = mgr.indexUsed := by
  unfold getOptions
  split <;> rfl

theorem destroy_of_mem {mgr : ConnectOptionMgr P} {index : Int} (present : index ∈ mgr.options) :
    mgr.destroy index = ⟨mgr.options.erase index, mgr.indexUsed.erase index⟩ := by
  obtain ⟨entry, found⟩ := Option.isSome_iff_exists.mp (AList.lookup_isSome.mpr present)
  simp only [destroy, found]

theorem object_destroy {mgr : ConnectOptionMgr P} {index : Int} (present : index ∈ mgr.options)
    (other : Int) :
    (mgr.destroy index).object other = if other = index then none else mgr.object other := by
  rw [destroy_of_mem present]
  simp only [object, Table.lookup_erase_iff]
  split <;> rfl

/-! ## Numbers -/

theorem mem_indexes_iff {index : Int} : index ∈ indexes ↔ 1 ≤ index ∧ index ≤ maxIndex := by
  simp only [indexes, List.mem_map, List.mem_range'_1]
  constructor
  · rintro ⟨n, bounds, rfl⟩
    exact ⟨by simp only [Int.ofNat_eq_natCast]; omega, by simp only [Int.ofNat_eq_natCast]; omega⟩
  · rintro ⟨lower, upper⟩
    exact ⟨index.toNat, by omega, by simp only [Int.ofNat_eq_natCast]; omega⟩

theorem freeIndex_eq_some {mgr : ConnectOptionMgr P} {index : Int}
    (found : mgr.freeIndex = some index) :
    index ∉ mgr.indexUsed ∧ 1 ≤ index ∧ index ≤ maxIndex := by
  have free := List.find?_some found
  have listed := mem_indexes_iff.mp (List.mem_of_find?_eq_some found)
  exact ⟨of_decide_eq_true free, listed⟩

theorem freeIndex_ne_zero {mgr : ConnectOptionMgr P} {index : Int}
    (found : mgr.freeIndex = some index) : index ≠ 0 := by
  have bounds := freeIndex_eq_some found
  omega

theorem freeIndex_eq_none {mgr : ConnectOptionMgr P} :
    mgr.freeIndex = none ↔ ∀ index : Int, 1 ≤ index → index ≤ maxIndex → index ∈ mgr.indexUsed := by
  simp only [freeIndex, List.find?_eq_none, mem_indexes_iff, decide_not, Bool.not_eq_eq_eq_not,
    Bool.not_true, decide_eq_false_iff_not, not_not, and_imp]

/-- What `make` does, case by case. -/
inductive MakeResult (failure : Option (OptionsStage × Thrown)) (mgr : ConnectOptionMgr P) :
    Except Thrown Int × ConnectOptionMgr P → Prop
  | full : mgr.freeIndex = none → MakeResult failure mgr (.error (.mqtt noIndex), mgr)
  | failed {index : Int} {stage : OptionsStage} {thrown : Thrown} :
      mgr.freeIndex = some index → failure = some (stage, thrown) →
      MakeResult failure mgr
        (.error thrown, { mgr with indexUsed := insert index mgr.indexUsed })
  | made {index : Int} : mgr.freeIndex = some index → failure = none →
      MakeResult failure mgr
        (.ok index,
          { options := mgr.options.insert index (some ⟨P.version5, P.noProperties⟩)
            indexUsed := insert index mgr.indexUsed })

theorem make_cases (failure : Option (OptionsStage × Thrown)) (mgr : ConnectOptionMgr P) :
    MakeResult failure mgr (mgr.make failure) := by
  unfold make makeIndex
  cases found : mgr.freeIndex with
  | none => exact .full found
  | some index =>
      simp only [ne_eq, freeIndex_ne_zero found, not_false_eq_true, ↓reduceIte]
      cases failure with
      | none => exact .made found rfl
      | some failed => exact .failed found rfl

theorem MakeResult.make_eq {failure : Option (OptionsStage × Thrown)} {mgr : ConnectOptionMgr P}
    {result : Except Thrown Int × ConnectOptionMgr P} (made : MakeResult failure mgr result) :
    mgr.make failure = result := by
  unfold make makeIndex
  cases made with
  | full none => simp only [none]
  | failed found failed =>
      simp only [found, failed, ne_eq, freeIndex_ne_zero found, not_false_eq_true, ↓reduceIte]
  | made found whole =>
      simp only [found, whole, ne_eq, freeIndex_ne_zero found, not_false_eq_true, ↓reduceIte]

end ConnectOptionMgr

end AmxxMqtt
