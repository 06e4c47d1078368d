import AmxxMqtt.Lib.Heap
import AmxxMqtt.NativeReturns

/-!
# The connect options in memory

`ConnectOptionMgr` has its objects as values.  Here they are what the source has: a table of
`ConnectOption *`, each pointing to an object that owns two others by plain pointers, and `new`
and `delete` of every one of them.  The allocator may return any address that is free, also one
it has had back, and building an object may fail at each of its stages.

An operation of the memory is `none` where it would go through a pointer to something else than
what it expects there, or free what is not allocated.
-/

namespace AmxxMqtt

variable {P : PahoOptions}

/-! ## What the natives do with the options -/

/-- What the module does with the options manager. -/
inductive OptionsUse where
  /-- `mqtt_create_connect_options` -/
  | create (failure : Option (OptionsStage × Thrown))
  /-- `mqtt_connect`, from the lookup of the options -/
  | connect (index : Cell)
  /-- `mqtt_set_options`, from the lookup -/
  | set (host : Host) (index name value : Cell)
  /-- `g_connectOptionMgr.reset()` -/
  | reset

/-- What comes of it. -/
inductive OptionsSight (P : PahoOptions) where
  | made (index : Int)
  | threw (thrown : Thrown)
  | unknown (index : Cell)
  /-- these options are passed to Paho -/
  | sent (options : P.Options)
  | badName
  | changed
  | cleared

namespace ConnectOptionMgr

def serve (mgr : ConnectOptionMgr P) : OptionsUse → OptionsSight P × ConnectOptionMgr P
  | .create failure =>
      match mgr.make failure with
      | (.ok index, mgr) => (.made index, mgr)
      | (.error thrown, mgr) => (.threw thrown, mgr)
  | .connect index =>
      match mgr.getOptions index with
      | (none, mgr) => (.unknown index, mgr)
      | (some option, mgr) => (.sent option.option, mgr.destroy index)
  | .set host index name value =>
      match mgr.getOptions index with
      | (none, mgr) => (.unknown index, mgr)
      | (some option, mgr) =>
          match optionName name with
          | none => (.badName, mgr)
          | some name => (.changed, mgr.setOption index (option.set host value name))
  | .reset => (.cleared, mgr.reset)

end ConnectOptionMgr

/-- What a native call does with the options, if it gets as far. -/
def Native.optionsUse (native : Native) (host : Host) (params : List Cell) (g : Globals P) :
    Option OptionsUse :=
  match native with
  | .mqttCreateConnectOptions => some (.create host.optionsFailure)
  | .mqttConnect => (native.optionsLookup params g).map .connect
  | .mqttSetOptions => (native.optionsLookup params g).map fun index =>
      .set host index (params.getD 2 0) (params.getD 3 0)
  | _ => none

/-! ## Memory -/

/-- A pointer; `nullptr` is 0. -/
abbrev Address := Nat

inductive HeapObject (P : PahoOptions) where
  /-- an `mqtt::connect_options` -/
  | connectOptions (options : P.Options)
  /-- an `mqtt::properties` -/
  | properties (properties : P.Properties)
  | connectOption (pOptions pProperties : Address)

abbrev OptionsHeap (P : PahoOptions) := AList fun _ : Address => HeapObject P

/-- The addresses the allocator returns while one object is built. -/
structure Allocation where
  connectOption : Address
  connectOptions : Address
  properties : Address
  deriving DecidableEq

/-- What has been allocated when building an object has got this far, and stays so.  The memory
of the `ConnectOption` itself is allocated before the two objects are, and freed if they fail. -/
def Allocation.used (place : Allocation) : Option OptionsStage → List Address
  | some .connectOption | some .connectOptions => []
  | some .properties => [place.connectOptions]
  | some .tableEntry | none => [place.connectOption, place.properties, place.connectOptions]

namespace OptionsHeap

/-- `*options->getOption()`. -/
def readOption (heap : OptionsHeap P) (address : Address) : Option P.Options :=
  match heap.lookup address with
  | some (.connectOption pOptions _) =>
      match heap.lookup pOptions with
      | some (.connectOptions options) => some options
      | _ => none
  | _ => none

/-- `*options->getProperties()`. -/
def readProperties (heap : OptionsHeap P) (address : Address) : Option P.Properties :=
  match heap.lookup address with
  | some (.connectOption _ pProperties) =>
      match heap.lookup pProperties with
      | some (.properties properties) => some properties
      | _ => none
  | _ => none

/-- A setter called on `options->getOption()`. -/
def writeOption (f : P.Options → P.Options) (address : Address) (heap : OptionsHeap P) :
    Option (OptionsHeap P) :=
  match heap.lookup address with
  | some (.connectOption pOptions _) =>
      (heap.readOption address).map fun options =>
        heap.insert pOptions (.connectOptions (f options))
  | _ => none

/-- A method called on `options->getProperties()`. -/
def writeProperties (f : P.Properties → P.Properties) (address : Address)
    (heap : OptionsHeap P) : Option (OptionsHeap P) :=
  match heap.lookup address with
  | some (.connectOption _ pProperties) =>
      (heap.readProperties address).map fun properties =>
        heap.insert pProperties (.properties (f properties))
  | _ => none

/-- One case of the switch of `mqtt_set_options`. -/
def set (host : Host) (value : Cell) (address : Address) (heap : OptionsHeap P) :
    OptionName → Option (OptionsHeap P)
  | .username => heap.writeOption (P.setUserName (host.string value)) address
  | .password => heap.writeOption (P.setPassword (host.string value)) address
  | .cleanStart => heap.writeOption (P.setCleanStart (host.getAmxAddr value > 0)) address
  | .sessionExpiry => do
      let heap ← heap.writeProperties P.clear address
      let heap ← heap.writeProperties (P.addSessionExpiryInterval (host.getAmxAddr value)) address
      let properties ← heap.readProperties address
      heap.writeOption (P.setProperties properties) address

/-- `delete` of a `ConnectOption *`: the destructor deletes the two objects first. -/
def deleteOption (heap : OptionsHeap P) (address : Address) : Option (OptionsHeap P) :=
  if address = 0 then some heap else
  match heap.lookup address with
  | some (.connectOption pOptions pProperties) => do
      let _ ← heap.readOption address
      let _ ← heap.readProperties address
      Heap.deleteAll [pOptions, pProperties, address] heap
  | _ => none

end OptionsHeap

structure OptionsMemory (P : PahoOptions) where
  heap : OptionsHeap P
  /-- `m_options` -/
  options : AList fun _ : Int => Address
  indexUsed : Finset Int

namespace OptionsMemory

def initial : OptionsMemory P := ⟨∅, ∅, ∅⟩

/-- The number the loop of `makeIndex` stops at. -/
def freeIndex (m : OptionsMemory P) : Option Int :=
  ConnectOptionMgr.indexes.find? fun index => index ∉ m.indexUsed

/-- The heap when building an object has got this far. -/
def built (place : Allocation) (heap : OptionsHeap P) : Option OptionsStage → OptionsHeap P
  | some .connectOption | some .connectOptions => heap
  | some .properties => heap.insert place.connectOptions (.connectOptions P.version5)
  | some .tableEntry | none =>
      ((heap.insert place.connectOptions (.connectOptions P.version5)).insert place.properties
        (.properties P.noProperties)).insert place.connectOption
          (.connectOption place.connectOptions place.properties)

def make (failure : Option (OptionsStage × Thrown)) (place : Allocation) (m : OptionsMemory P) :
    Except Thrown Int × OptionsMemory P :=
  match m.freeIndex with
  | none => (.error (.mqtt ConnectOptionMgr.noIndex), m)
  | some index =>
      let m := { m with indexUsed := insert index m.indexUsed }
      if index ≠ 0 then
        let m := { m with heap := built place m.heap (failure.map (·.1)) }
        match failure with
        | some (_, thrown) => (.error thrown, m)
        | none => (.ok index, { m with options := m.options.insert index place.connectOption })
      else (.ok 0, m)

/-- `m_options[index]`. -/
def getOptions (index : Int) (m : OptionsMemory P) : Address × OptionsMemory P :=
  match m.options.lookup index with
  | some address => (address, m)
  | none => (0, { m with options := m.options.insert index 0 })

def destroy (index : Int) (m : OptionsMemory P) : Option (OptionsMemory P) :=
  match m.options.lookup index with
  | none => some m
  | some address =>
      (m.heap.deleteOption address).map fun heap =>
        { heap, options := m.options.erase index, indexUsed := m.indexUsed.erase index }

/-- The loop of `reset`, and of `~ConnectOptionMgr`. -/
def deleteAll (m : OptionsMemory P) : Option (OptionsHeap P) :=
  (Table.values m.options).foldlM OptionsHeap.deleteOption m.heap

def reset (m : OptionsMemory P) : Option (OptionsMemory P) :=
  m.deleteAll.map fun heap => { heap, options := ∅, indexUsed := ∅ }

def serve (place : Allocation) (m : OptionsMemory P) :
    OptionsUse → Option (OptionsSight P × OptionsMemory P)
  | .create failure =>
      match m.make failure place with
      | (.ok index, m) => some (.made index, m)
      | (.error thrown, m) => some (.threw thrown, m)
  | .connect index =>
      match m.getOptions index with
      | (0, m) => some (.unknown index, m)
      | (address, m) => do
          let options ← m.heap.readOption address
          let m ← m.destroy index
          some (.sent options, m)
  | .set host index name value =>
      match m.getOptions index with
      | (0, m) => some (.unknown index, m)
      | (address, m) =>
          match optionName name with
          | none => some (.badName, m)
          | some name =>
              (m.heap.set host value address name).map fun heap => (.changed, { m with heap })
  | .reset => m.reset.map fun m => (.cleared, m)

/-- What the allocator promises: an object gets an address of its own that is not null. -/
structure Fresh (m : OptionsMemory P) (place : Allocation) : Prop where
  valid : 0 ∉ place.used none
  distinct : (place.used none).Nodup
  free : ∀ address ∈ place.used none, address ∉ m.heap

instance (m : OptionsMemory P) (place : Allocation) : Decidable (m.Fresh place) :=
  decidable_of_iff (_ ∧ _ ∧ _) ⟨fun h => ⟨h.1, h.2.1, h.2.2⟩, fun h => ⟨h.1, h.2, h.3⟩⟩

/-- The objects a use leaves allocated that nothing points to. -/
def leaks (place : Allocation) (m : OptionsMemory P) : OptionsUse → List Address
  | .create (some (stage, _)) => if m.freeIndex.isSome then place.used (some stage) else []
  | _ => []

end OptionsMemory

end AmxxMqtt
