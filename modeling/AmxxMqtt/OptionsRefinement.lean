import AmxxMqtt.OptionsMemory

/-!
# The options in memory are the options

`Holds` relates the memory of the options manager to the manager with its objects as values.
Every use of the manager goes through in memory, gives what it gives with values, and keeps every
allocated object with one owner: the entry that points to it, or nobody, if building it failed
half-way.
-/

namespace AmxxMqtt

namespace OptionsHeap

variable {P : PahoOptions} {heap heap' : OptionsHeap P} {address : Address}
  {entry : Option (ConnectOption P)} {option : ConnectOption P}

/-- What a `ConnectOption *` stands for. -/
inductive Points (heap : OptionsHeap P) : Address → Option (ConnectOption P) → Prop
  | null : Points heap 0 none
  | object {address pOptions pProperties : Address} {options : P.Options}
      {properties : P.Properties} (allocated : address ≠ 0)
      (itself : heap.lookup address = some (.connectOption pOptions pProperties))
      (options_eq : heap.lookup pOptions = some (.connectOptions options))
      (properties_eq : heap.lookup pProperties = some (.properties properties)) :
      Points heap address (some ⟨options, properties⟩)

/-- The objects a `ConnectOption *` owns. -/
def footprint (heap : OptionsHeap P) (address : Address) : List Address :=
  if address = 0 then [] else
  match heap.lookup address with
  | some (.connectOption pOptions pProperties) => [pOptions, pProperties, address]
  | _ => []

theorem footprint_eq {pOptions pProperties : Address} (allocated : address ≠ 0)
    (itself : heap.lookup address = some (.connectOption pOptions pProperties)) :
    footprint heap address = [pOptions, pProperties, address] := by
  simp only [footprint, if_neg allocated, itself]

/-- What a pointer stands for depends on what it owns only. -/
theorem Points.frame (points : Points heap address entry)
    (same : ∀ owned ∈ footprint heap address, heap'.lookup owned = heap.lookup owned) :
    Points heap' address entry ∧ footprint heap' address = footprint heap address := by
  cases points with
  | null => exact ⟨.null, rfl⟩
  | object allocated itself options properties =>
      rw [footprint_eq allocated itself] at same ⊢
      simp only [List.forall_mem_cons] at same
      rcases same with ⟨sameOptions, sameProperties, sameItself, _⟩
      have itself' := sameItself.trans itself
      exact ⟨.object allocated itself' (sameOptions.trans options)
        (sameProperties.trans properties), footprint_eq allocated itself'⟩

theorem readOption_of_points (points : Points heap address (some option)) :
    heap.readOption address = some option.option := by
  cases points with
  | object allocated itself options properties => simp only [readOption, itself, options]

theorem readProperties_of_points (points : Points heap address (some option)) :
    heap.readProperties address = some option.properties := by
  cases points with
  | object allocated itself options properties => simp only [readProperties, itself, properties]

theorem deleteOption_of_points (points : Points heap address entry) :
    heap.deleteOption address = Heap.deleteAll (footprint heap address) heap := by
  cases entry with
  | none =>
      cases points
      rfl
  | some option =>
      have read := readOption_of_points points
      have readProps := readProperties_of_points points
      cases points with
      | object allocated itself options properties =>
          rw [footprint_eq allocated itself]
          simp only [deleteOption, if_neg allocated, itself, read, readProps, Option.bind_eq_bind,
            Option.bind_some]

/-- Pointers with owners of their own are deleted without failure. -/
theorem deleteAll_of_points {addresses rest : List Address}
    (points : ∀ address ∈ addresses, ∃ entry, Points heap address entry)
    (accounted : Heap.Accounted heap (addresses.flatMap (footprint heap) ++ rest)) :
    ∃ heap', addresses.foldlM deleteOption heap = some heap' ∧ Heap.Accounted heap' rest := by
  induction addresses generalizing heap with
  | nil => exact ⟨heap, rfl, accounted⟩
  | cons first addresses ih =>
      obtain ⟨⟨entry, here⟩, others⟩ := List.forall_mem_cons.mp points
      rw [List.flatMap_cons, List.append_assoc] at accounted
      obtain ⟨next, deleted, left, same⟩ := accounted.deleteAll
      have frame {address : Address} (member : address ∈ addresses) {entry}
          (points : Points heap address entry) :
          Points next address entry ∧ footprint next address = footprint heap address :=
        points.frame fun owned among => same owned (List.mem_append_left _
          (List.mem_flatMap.mpr ⟨address, member, among⟩))
      have footprints : addresses.flatMap (footprint next) =
          addresses.flatMap (footprint heap) := by
        refine List.flatMap_congr fun address member => ?_
        obtain ⟨entry, points⟩ := others address member
        exact (frame member points).2
      have points' : ∀ address ∈ addresses, ∃ entry, Points next address entry := by
        intro address member
        obtain ⟨entry, points⟩ := others address member
        exact ⟨entry, (frame member points).1⟩
      obtain ⟨heap', all, last⟩ := ih points' (footprints ▸ left)
      refine ⟨heap', ?_, last⟩
      rw [List.foldlM_cons, deleteOption_of_points here, deleted]
      exact all

/-- Writes to one object. -/
structure Updates (heap : OptionsHeap P) (address : Address) (option : ConnectOption P)
    (heap' : OptionsHeap P) : Prop where
  points : Points heap' address (some option)
  footprint : heap'.footprint address = heap.footprint address
  frame : ∀ other, other ∉ heap.footprint address → heap'.lookup other = heap.lookup other
  accounted : ∀ owned, Heap.Accounted heap owned → Heap.Accounted heap' owned

theorem Updates.trans {heap'' : OptionsHeap P} {later : ConnectOption P}
    (first : heap.Updates address option heap') (second : heap'.Updates address later heap'') :
    heap.Updates address later heap'' where
  points := second.points
  footprint := second.footprint.trans first.footprint
  frame other outside := by
    have still : other ∉ heap'.footprint address := first.footprint ▸ outside
    exact (second.frame other still).trans (first.frame other outside)
  accounted owned before := second.accounted owned (first.accounted owned before)

theorem mem_of_lookup {object : HeapObject P} (found : heap.lookup address = some object) :
    address ∈ heap :=
  AList.lookup_isSome.mp (Option.isSome_of_eq_some found)

/-- An object is written to, and another stays what it is. -/
theorem lookup_insert_other {place part : Address} {object old : HeapObject P} (new : HeapObject P)
    (found : heap.lookup place = some object) (written : heap.lookup part = some old)
    (different : object ≠ old) : (heap.insert part new).lookup place = some object := by
  rw [AList.lookup_insert_ne]
  · exact found
  · rintro rfl
    exact different (Option.some.inj (found.symm.trans written))

theorem updates_insert {part : Address} {old new : HeapObject P}
    (owned : part ∈ heap.footprint address) (written : heap.lookup part = some old)
    (points : Points (heap.insert part new) address (some option))
    (footprint : OptionsHeap.footprint (heap.insert part new) address = heap.footprint address) :
    heap.Updates address option (heap.insert part new) where
  points := points
  footprint := footprint
  frame _ outside := AList.lookup_insert_ne fun same => outside (same ▸ owned)
  accounted _ before := before.write (mem_of_lookup written) new

theorem writeOption_of_points (f : P.Options → P.Options)
    (points : Points heap address (some option)) : ∃ heap',
    heap.writeOption f address = some heap' ∧
      heap.Updates address { option with option := f option.option } heap' := by
  have read := readOption_of_points points
  cases points with
  | @object _ pOptions pProperties options properties allocated itself optionsAt propertiesAt =>
      refine ⟨heap.insert pOptions (.connectOptions (f options)), ?_, ?_⟩
      · simp only [writeOption, itself, read, Option.map_some]
      have itself' := lookup_insert_other (.connectOptions (f options)) itself optionsAt (by simp)
      have others := lookup_insert_other (.connectOptions (f options)) propertiesAt optionsAt
        (by simp)
      refine updates_insert ?_ optionsAt
        (.object allocated itself' (AList.lookup_insert _) others) ?_
      · rw [footprint_eq allocated itself]
        exact List.mem_cons_self
      · rw [footprint_eq allocated itself, footprint_eq allocated itself']

theorem writeProperties_of_points (f : P.Properties → P.Properties)
    (points : Points heap address (some option)) : ∃ heap',
    heap.writeProperties f address = some heap' ∧
      heap.Updates address { option with properties := f option.properties } heap' := by
  have read := readProperties_of_points points
  cases points with
  | @object _ pOptions pProperties options properties allocated itself optionsAt propertiesAt =>
      refine ⟨heap.insert pProperties (.properties (f properties)), ?_, ?_⟩
      · simp only [writeProperties, itself, read, Option.map_some]
      have itself' := lookup_insert_other (.properties (f properties)) itself propertiesAt (by simp)
      have others := lookup_insert_other (.properties (f properties)) optionsAt propertiesAt
        (by simp)
      refine updates_insert ?_ propertiesAt
        (.object allocated itself' others (AList.lookup_insert _)) ?_
      · rw [footprint_eq allocated itself]
        exact List.mem_cons_of_mem _ List.mem_cons_self
      · rw [footprint_eq allocated itself, footprint_eq allocated itself']

/-- `mqtt_set_options` through the pointers sets what it sets with values. -/
theorem set_of_points (host : Host) (value : Cell) (name : OptionName)
    (points : Points heap address (some option)) : ∃ heap',
    heap.set host value address name = some heap' ∧
      heap.Updates address (option.set host value name) heap' := by
  cases name with
  | username => exact writeOption_of_points _ points
  | password => exact writeOption_of_points _ points
  | cleanStart => exact writeOption_of_points _ points
  | sessionExpiry =>
      obtain ⟨cleared, first, clears⟩ := writeProperties_of_points P.clear points
      obtain ⟨added, second, adds⟩ := writeProperties_of_points
        (P.addSessionExpiryInterval (host.getAmxAddr value)) clears.points
      have read := readProperties_of_points adds.points
      obtain ⟨set, third, sets⟩ := writeOption_of_points
        (P.setProperties (P.addSessionExpiryInterval (host.getAmxAddr value)
          (P.clear option.properties))) adds.points
      refine ⟨set, ?_, clears.trans (adds.trans sets)⟩
      simp only [OptionsHeap.set, first, second, read, third, Option.bind_eq_bind,
        Option.bind_some]

end OptionsHeap

namespace OptionsMemory

open OptionsHeap

variable {P : PahoOptions} {m m' : OptionsMemory P} {mgr : ConnectOptionMgr P}
  {lost : List Address} {index : Int} {address : Address} {place : Allocation}

/-- What the entries of a table own. -/
def owned (heap : OptionsHeap P) (options : AList fun _ : Int => Address) : List Address :=
  (Table.values options).flatMap heap.footprint

/-- The memory holds the manager's objects, and these objects that nothing points to. -/
structure Holds (m : OptionsMemory P) (mgr : ConnectOptionMgr P) (lost : List Address) : Prop where
  used : m.indexUsed = mgr.indexUsed
  entries : ∀ index, Option.Rel m.heap.Points (m.options.lookup index) (mgr.options.lookup index)
  reserved : ∀ {index option}, mgr.object index = some option → index ∈ mgr.indexUsed
  accounted : Heap.Accounted m.heap (owned m.heap m.options ++ lost)

theorem holds_initial : (initial : OptionsMemory P).Holds .initial [] where
  used := rfl
  entries _ := .none
  reserved found := by cases found
  accounted := .nil

namespace Holds

theorem entry (holds : m.Holds mgr lost) (found : m.options.lookup index = some address) :
    ∃ entry, mgr.options.lookup index = some entry ∧ m.heap.Points address entry := by
  have related := holds.entries index
  rw [found] at related
  cases stored : mgr.options.lookup index with
  | none =>
      rw [stored] at related
      cases related
  | some entry =>
      rw [stored] at related
      cases related with
      | some points => exact ⟨entry, rfl, points⟩

/-- The pointer of a live number. -/
theorem pointer (holds : m.Holds mgr lost) {option : ConnectOption P}
    (found : mgr.object index = some option) : ∃ address,
    m.options.lookup index = some address ∧ m.heap.Points address (some option) := by
  have stored : mgr.options.lookup index = some (some option) := Option.join_eq_some_iff.mp found
  have related := holds.entries index
  rw [stored] at related
  cases pointer : m.options.lookup index with
  | none =>
      rw [pointer] at related
      cases related
  | some address =>
      rw [pointer] at related
      cases related with
      | some points => exact ⟨address, rfl, points⟩

theorem absent (holds : m.Holds mgr lost) (missing : m.options.lookup index = none) :
    mgr.options.lookup index = none := by
  have related := holds.entries index
  rw [missing] at related
  cases stored : mgr.options.lookup index with
  | none => rfl
  | some entry =>
      rw [stored] at related
      cases related

/-- The objects of one entry, and all the others. -/
theorem split (holds : m.Holds mgr lost) (found : m.options.lookup index = some address) :
    Heap.Accounted m.heap
      (m.heap.footprint address ++ (owned m.heap (m.options.erase index) ++ lost)) := by
  refine holds.accounted.perm ?_
  rw [← List.append_assoc]
  exact (Table.flatMap_values_perm m.heap.footprint found).append_right lost

/-- Entries do not see what happens to objects they do not own. -/
theorem frame (holds : m.Holds mgr lost) {heap : OptionsHeap P}
    {options : AList fun _ : Int => Address}
    (among : ∀ {index address}, options.lookup index = some address →
      m.options.lookup index = some address)
    (same : ∀ address ∈ owned m.heap options, heap.lookup address = m.heap.lookup address) :
    (∀ index, (options.lookup index).isSome = true → Option.Rel heap.Points
      (options.lookup index) (mgr.options.lookup index)) ∧
      owned heap options = owned m.heap options := by
  have kept {index : Int} {address : Address} {entry : Option (ConnectOption P)}
      (found : options.lookup index = some address) (points : m.heap.Points address entry) :
      heap.Points address entry ∧ heap.footprint address = m.heap.footprint address := by
    refine points.frame fun part inside => same part ?_
    exact List.mem_flatMap.mpr ⟨address, Table.mem_values_iff.mpr ⟨index, found⟩, inside⟩
  constructor
  · intro index present
    obtain ⟨address, found⟩ := Option.isSome_iff_exists.mp present
    obtain ⟨entry, stored, points⟩ := holds.entry (among found)
    rw [found, stored]
    exact .some (kept found points).1
  · refine List.flatMap_congr fun address member => ?_
    obtain ⟨index, found⟩ := Table.mem_values_iff.mp member
    obtain ⟨entry, _, points⟩ := holds.entry (among found)
    exact (kept found points).2

/-- The other entries do not see what happens to the objects of one. -/
theorem others (holds : m.Holds mgr lost) (index : Int) {heap : OptionsHeap P}
    (same : ∀ address ∈ owned m.heap (m.options.erase index),
      heap.lookup address = m.heap.lookup address) :
    (∀ other, other ≠ index →
      Option.Rel heap.Points (m.options.lookup other) (mgr.options.lookup other)) ∧
      owned heap (m.options.erase index) = owned m.heap (m.options.erase index) := by
  have among {other : Int} {address : Address}
      (found : (m.options.erase index).lookup other = some address) :
      m.options.lookup other = some address := by
    rw [Table.lookup_erase_iff] at found
    split at found
    · cases found
    · exact found
  obtain ⟨entries, footprints⟩ := holds.frame among same
  refine ⟨fun other different => ?_, footprints⟩
  have still := AList.lookup_erase_ne (s := m.options) different
  cases found : m.options.lookup other with
  | none =>
      rw [holds.absent found]
      exact .none
  | some address =>
      rw [found] at still
      have related := entries other (Option.isSome_of_eq_some still)
      rwa [still] at related

theorem getOptions (holds : m.Holds mgr lost) (index : Int) :
    (m.getOptions index).2.Holds (mgr.getOptions index).2 lost ∧
      (m.getOptions index).2.options.lookup index = some (m.getOptions index).1 ∧
      (m.getOptions index).2.heap.Points (m.getOptions index).1 (mgr.getOptions index).1 := by
  cases found : m.options.lookup index with
  | some address =>
      obtain ⟨entry, stored, points⟩ := holds.entry found
      simp only [OptionsMemory.getOptions, ConnectOptionMgr.getOptions, found, stored]
      exact ⟨holds, trivial, points⟩
  | none =>
      have stored := holds.absent found
      have reserved := fun {other : Int} {option : ConnectOption P}
          (live : (mgr.getOptions index).2.object other = some option) =>
        ConnectOptionMgr.indexUsed_getOptions index mgr ▸
          holds.reserved ((ConnectOptionMgr.object_getOptions index other mgr).symm.trans live)
      simp only [OptionsMemory.getOptions, ConnectOptionMgr.getOptions, found, stored] at reserved ⊢
      refine ⟨⟨holds.used, fun other => ?_, reserved, ?_⟩, AList.lookup_insert _, .null⟩
      · simp only [Table.lookup_insert_iff]
        split
        · exact .some .null
        · exact holds.entries other
      · show Heap.Accounted m.heap (owned m.heap (m.options.insert index 0) ++ lost)
        rw [owned, Table.values_insert_of_notMem (AList.lookup_eq_none.mp found)]
        exact holds.accounted

theorem destroy (holds : m.Holds mgr lost) (index : Int) :
    ∃ m', m.destroy index = some m' ∧ m'.Holds (mgr.destroy index) lost := by
  cases found : m.options.lookup index with
  | none =>
      simp only [OptionsMemory.destroy, ConnectOptionMgr.destroy, found, holds.absent found]
      exact ⟨m, rfl, holds⟩
  | some address =>
      obtain ⟨entry, stored, points⟩ := holds.entry found
      obtain ⟨heap, deleted, left, same⟩ := (holds.split found).deleteAll
      obtain ⟨entries, footprints⟩ := holds.others index
        fun part among => same part (List.mem_append_left _ among)
      simp only [OptionsMemory.destroy, ConnectOptionMgr.destroy, found, stored,
        deleteOption_of_points points, deleted, Option.map_some]
      refine ⟨_, rfl, congrArg (·.erase index) holds.used, fun other => ?_, fun live => ?_, ?_⟩
      · simp only [Table.lookup_erase_iff]
        split
        · exact .none
        · exact entries other ‹_›
      · rename_i other option
        simp only [ConnectOptionMgr.object, Table.lookup_erase_iff] at live
        split at live
        · cases live
        · exact Finset.mem_erase.mpr ⟨‹_›, holds.reserved live⟩
      · show Heap.Accounted heap (owned heap (m.options.erase index) ++ lost)
        rw [footprints]
        exact left

/-- Every entry is deleted, by `reset` or by the destructor of the manager. -/
theorem deleteAll (holds : m.Holds mgr lost) :
    ∃ heap, m.deleteAll = some heap ∧ Heap.Accounted heap lost := by
  refine deleteAll_of_points (fun address member => ?_) holds.accounted
  obtain ⟨index, found⟩ := Table.mem_values_iff.mp member
  obtain ⟨entry, _, points⟩ := holds.entry found
  exact ⟨entry, points⟩

theorem reset (holds : m.Holds mgr lost) :
    ∃ m', m.reset = some m' ∧ m'.Holds mgr.reset lost := by
  obtain ⟨heap, deleted, left⟩ := holds.deleteAll
  refine ⟨⟨heap, ∅, ∅⟩, ?_, rfl, fun _ => .none, fun found => ?_, left⟩
  · rw [OptionsMemory.reset, deleted, Option.map_some]
  · cases found

/-- The objects of one entry are written to. -/
theorem update (holds : m.Holds mgr lost) (found : m.options.lookup index = some address)
    {heap : OptionsHeap P} {old new : ConnectOption P} (live : mgr.object index = some old)
    (updates : m.heap.Updates address new heap) :
    ({ m with heap } : OptionsMemory P).Holds (mgr.setOption index new) lost := by
  have apart := (List.nodup_append.mp (holds.split found).nodup).2.2
  obtain ⟨entries, footprints⟩ := holds.others index
    fun part among => updates.frame part fun own => apart part own part
      (List.mem_append_left _ among) rfl
  refine ⟨holds.used, fun other => ?_, fun {other option} set => ?_, ?_⟩
  · simp only [ConnectOptionMgr.setOption, Table.lookup_insert_iff]
    split
    · rename_i same
      rw [same, found]
      exact .some updates.points
    · exact entries other ‹_›
  · rw [ConnectOptionMgr.setOption, ConnectOptionMgr.object_insert] at set
    split at set
    · rename_i same
      rw [same]
      exact holds.reserved live
    · exact holds.reserved set
  · refine (updates.accounted _ (holds.split found)).perm ?_
    rw [← updates.footprint, ← footprints, ← List.append_assoc]
    exact (Table.flatMap_values_perm heap.footprint found).symm.append_right lost

theorem freeIndex (holds : m.Holds mgr lost) : m.freeIndex = mgr.freeIndex := by
  unfold OptionsMemory.freeIndex ConnectOptionMgr.freeIndex
  rw [holds.used]

end Holds

/-! ## Building an object -/

/-- What is allocated already stays as it is. -/
theorem lookup_built {heap : OptionsHeap P} (stage : Option OptionsStage)
    (other : address ∉ place.used none) :
    (built place heap stage).lookup address = heap.lookup address := by
  simp only [Allocation.used, List.mem_cons, List.not_mem_nil, or_false, not_or] at other
  rcases stage with _ | _ | _ | _ | _ <;>
    simp only [built, AList.lookup_insert_ne other.1, AList.lookup_insert_ne other.2.1,
      AList.lookup_insert_ne other.2.2]

theorem accounted_built {owned : List Address} (fresh : m.Fresh place)
    (accounted : Heap.Accounted m.heap owned) (stage : Option OptionsStage) :
    Heap.Accounted (built place m.heap stage) (place.used stage ++ owned) := by
  have distinct := fresh.distinct
  simp only [Allocation.used, List.nodup_cons, List.mem_cons, List.not_mem_nil, or_false,
    not_or] at distinct
  have optionsFree := fresh.free place.connectOptions (by simp [Allocation.used])
  have propertiesFree := fresh.free place.properties (by simp [Allocation.used])
  have optionFree := fresh.free place.connectOption (by simp [Allocation.used])
  have one := accounted.alloc optionsFree (.connectOptions P.version5)
  have second : place.properties ∉ m.heap.insert place.connectOptions
      (.connectOptions P.version5) := by simp [distinct.2.1, propertiesFree]
  have two := one.alloc second (.properties P.noProperties)
  have third : place.connectOption ∉ (m.heap.insert place.connectOptions
      (.connectOptions P.version5)).insert place.properties (.properties P.noProperties) := by
    simp [distinct.1, optionFree]
  have three := two.alloc third (.connectOption place.connectOptions place.properties)
  rcases stage with _ | _ | _ | _ | _
  exacts [three, accounted, one, accounted, three]

/-- The object just built. -/
theorem points_built (fresh : m.Fresh place) :
    (built place m.heap none).Points place.connectOption
        (some ⟨P.version5, P.noProperties⟩) ∧
      (built place m.heap none).footprint place.connectOption =
        [place.connectOptions, place.properties, place.connectOption] := by
  have distinct := fresh.distinct
  have valid := fresh.valid
  simp only [Allocation.used, List.nodup_cons, List.mem_cons, List.not_mem_nil, or_false,
    not_or] at distinct valid
  have itself : (built place m.heap none).lookup place.connectOption =
      some (.connectOption place.connectOptions place.properties) := AList.lookup_insert _
  have allocated : place.connectOption ≠ 0 := Ne.symm valid.1
  refine ⟨.object allocated itself ?_ ?_, footprint_eq allocated itself⟩
  · rw [built, AList.lookup_insert_ne (Ne.symm distinct.1.2),
      AList.lookup_insert_ne (Ne.symm distinct.2.1), AList.lookup_insert]
  · rw [built, AList.lookup_insert_ne (Ne.symm distinct.1.1), AList.lookup_insert]

namespace Holds

/-- A number that is not used has no object. -/
theorem owned_unused (holds : m.Holds mgr lost) (unused : index ∉ mgr.indexUsed) :
    (owned m.heap m.options).Perm (owned m.heap (m.options.erase index)) := by
  cases found : m.options.lookup index with
  | none =>
      rw [Table.erase_of_notMem (AList.lookup_eq_none.mp found)]
  | some address =>
      obtain ⟨entry, stored, points⟩ := holds.entry found
      have split := Table.flatMap_values_perm m.heap.footprint found
      cases points with
      | null => exact split
      | object allocated itself optionsAt propertiesAt =>
          have live := congrArg Option.join stored
          exact absurd (holds.reserved live) unused

theorem unallocated (holds : m.Holds mgr lost) (fresh : m.Fresh place)
    (member : address ∈ owned m.heap m.options) : address ∉ place.used none := by
  intro used
  refine fresh.free address used (holds.accounted.mem_iff.mpr ?_)
  exact List.mem_append_left _ member

theorem make (holds : m.Holds mgr lost) (fresh : m.Fresh place)
    (failure : Option (OptionsStage × Thrown)) :
    ∃ m', m.make failure place = ((mgr.make failure).1, m') ∧
      m'.Holds (mgr.make failure).2 (m.leaks place (.create failure) ++ lost) := by
  have made := mgr.make_cases failure
  generalize mgr.make failure = result at made
  have free := holds.freeIndex
  cases made with
  | full none =>
      refine ⟨m, ?_, ?_⟩
      · simp only [OptionsMemory.make, free, none]
      · have nothing : m.leaks place (.create failure) = [] := by
          rcases failure with _ | ⟨stage, thrown⟩
          · rfl
          · simp only [leaks, free, none, Option.isSome_none, Bool.false_eq_true, ↓reduceIte]
        rw [nothing]
        exact holds
  | @failed index stage thrown found failed =>
      subst failed
      obtain ⟨entries, footprints⟩ := holds.frame id fun address member =>
        lookup_built (some stage) (holds.unallocated fresh member)
      refine ⟨{ m with
        heap := built place m.heap (some stage), indexUsed := insert index m.indexUsed },
        ?_, congrArg (insert index ·) holds.used, fun other => ?_, fun live => ?_, ?_⟩
      · simp only [OptionsMemory.make, free, found, ne_eq,
          ConnectOptionMgr.freeIndex_ne_zero found, not_false_eq_true, ↓reduceIte, Option.map_some]
      · cases present : m.options.lookup other with
        | none =>
            simp only [holds.absent present]
            exact .none
        | some address =>
            have related := entries other (Option.isSome_of_eq_some present)
            rwa [present] at related
      · exact Finset.mem_insert_of_mem (holds.reserved live)
      · have lost' : m.leaks place (.create (some (stage, thrown))) = place.used (some stage) := by
          simp only [leaks, free, found, Option.isSome_some, ↓reduceIte]
        show Heap.Accounted _ (owned (built place m.heap (some stage)) m.options ++ _)
        rw [footprints, lost']
        refine (accounted_built fresh holds.accounted (some stage)).perm ?_
        exact List.perm_append_comm_assoc ..
  | @made index found whole =>
      subst whole
      have unused := (ConnectOptionMgr.freeIndex_eq_some found).1
      obtain ⟨points, footprint⟩ := points_built fresh
      obtain ⟨entries, footprints⟩ := holds.others index fun address member =>
        lookup_built none (holds.unallocated fresh ((holds.owned_unused unused).mem_iff.mpr member))
      refine ⟨⟨built place m.heap none, m.options.insert index place.connectOption,
        insert index m.indexUsed⟩, ?_, congrArg (insert index ·) holds.used, fun other => ?_,
        fun {other option} live => ?_, ?_⟩
      · simp only [OptionsMemory.make, free, found, ne_eq,
          ConnectOptionMgr.freeIndex_ne_zero found, not_false_eq_true, ↓reduceIte, Option.map_none]
      · simp only [Table.lookup_insert_iff]
        split
        · exact .some points
        · exact entries other ‹_›
      · rw [ConnectOptionMgr.object_insert] at live
        split at live
        · rename_i same
          rw [same]
          exact Finset.mem_insert_self ..
        · exact Finset.mem_insert_of_mem (holds.reserved live)
      · show Heap.Accounted _ (owned _ (m.options.insert index place.connectOption) ++ lost)
        rw [owned, Table.values_insert, List.flatMap_cons, footprint,
          show (Table.values (m.options.erase index)).flatMap _ =
            owned m.heap (m.options.erase index) from footprints]
        have split := holds.accounted.perm ((holds.owned_unused unused).append_right lost)
        refine (accounted_built fresh split none).perm ?_
        rw [List.append_assoc]
        exact (List.reverse_perm _).symm.append_right _

/-- **Every use of the manager goes through in memory**, and gives what it gives with values. -/
theorem serve (holds : m.Holds mgr lost) (fresh : m.Fresh place) (use : OptionsUse) :
    ∃ m', m.serve place use = some ((mgr.serve use).1, m') ∧
      m'.Holds (mgr.serve use).2 (m.leaks place use ++ lost) := by
  cases use with
  | create failure =>
      obtain ⟨m', made, after⟩ := holds.make fresh failure
      simp only [OptionsMemory.serve, ConnectOptionMgr.serve, made]
      generalize mgr.make failure = result at after
      rcases result with ⟨_ | _, _⟩ <;> exact ⟨m', rfl, after⟩
  | connect index =>
      obtain ⟨after, found, points⟩ := holds.getOptions index
      simp only [OptionsMemory.serve, ConnectOptionMgr.serve]
      generalize m.getOptions index = looked at after found points
      generalize mgr.getOptions index = lookedUp at after points
      rcases looked with ⟨address, m₁⟩
      rcases lookedUp with ⟨entry, mgr₁⟩
      cases points with
      | null => exact ⟨m₁, rfl, after⟩
      | object allocated itself optionsAt propertiesAt =>
          have read := readOption_of_points (.object allocated itself optionsAt propertiesAt)
          obtain ⟨place, rfl⟩ := Nat.exists_eq_succ_of_ne_zero allocated
          obtain ⟨m', destroyed, left⟩ := after.destroy index
          refine ⟨m', ?_, left⟩
          simp only [read, destroyed, Option.bind_eq_bind, Option.bind_some]
  | set host index name value =>
      obtain ⟨after, found, points⟩ := holds.getOptions index
      have object := ConnectOptionMgr.object_getOptions index index mgr
      have first := ConnectOptionMgr.getOptions_fst index mgr
      simp only [OptionsMemory.serve, ConnectOptionMgr.serve]
      generalize m.getOptions index = looked at after found points
      generalize mgr.getOptions index = lookedUp at after points object first
      rcases looked with ⟨address, m₁⟩
      rcases lookedUp with ⟨entry, mgr₁⟩
      have live : mgr₁.object index = entry := object.trans first.symm
      cases points with
      | null => exact ⟨m₁, rfl, after⟩
      | object allocated itself optionsAt propertiesAt =>
          have points := Points.object allocated itself optionsAt propertiesAt
          obtain ⟨place, rfl⟩ := Nat.exists_eq_succ_of_ne_zero allocated
          cases optionName name with
          | none => exact ⟨m₁, rfl, after⟩
          | some name =>
              obtain ⟨heap, set, updates⟩ := set_of_points host value name points
              refine ⟨{ m₁ with heap }, ?_, after.update found live updates⟩
              simp only [set, Option.map_some]
  | reset =>
      obtain ⟨m', reset, after⟩ := holds.reset
      refine ⟨m', ?_, after⟩
      simp only [OptionsMemory.serve, ConnectOptionMgr.serve, reset, Option.map_some]

end Holds

end OptionsMemory

end AmxxMqtt
