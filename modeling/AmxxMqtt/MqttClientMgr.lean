import Mathlib.Algebra.Group.Nat.Defs
import Mathlib.Algebra.Ring.Int.Defs
import AmxxMqtt.Lib.Table
import AmxxMqtt.MqttClient

/-!
# `MqttClientMgr`

The table of clients and the handle counter.  `make` is written as in the source, with the
unsigned 64-bit counter and its cast to `int`; `Valid` is what every operation keeps, and from it
the cast never truncates and no handle is issued twice.
-/

namespace AmxxMqtt

/-- `numeric_limits<int32_t>::max()`. -/
def int32Max : Nat := 2 ^ 31 - 1

/-- `static_cast<int>` of an unsigned value. -/
def toInt32 (value : Nat) : Int :=
  Int.bmod value (2 ^ 32)

theorem toInt32_of_le {value : Nat} (bound : value ≤ int32Max) : toInt32 value = value := by
  unfold int32Max at bound
  exact Int.bmod_eq_of_le_mul_two (by omega) (by omega)

structure MqttClientMgr where
  clients : AList fun _ : Int => AmxxMqttClient
  nextHandle : Nat

namespace MqttClientMgr

def initial : MqttClientMgr := ⟨∅, 1⟩

/-- `maxClients`. -/
def maxClients : Nat := 10000

def tooManyClients : PahoException := ⟨0, "too many mqtt clients"⟩

def handlesExhausted : PahoException := ⟨0, "mqtt client handles exhausted"⟩

/-- The freshly built client with its four handlers bound to the handle. -/
def bound (object : ObjectId) (handle : Int) : AmxxMqttClient :=
  { object
    base := ({} : MqttClient BoundHandler)
      |>.setConnectedHandler (some ⟨.connected, handle⟩)
      |>.setMessageHandler (some ⟨.message, handle⟩)
      |>.setConnectionLostHandler (some ⟨.connectionLost, handle⟩)
      |>.setDisconnectHandler (some ⟨.disconnected, handle⟩) }

/-- `unordered_map::emplace`: an existing entry stays. -/
def emplace (handle : Int) (client : AmxxMqttClient)
    (clients : AList fun _ : Int => AmxxMqttClient) : AList fun _ : Int => AmxxMqttClient :=
  if handle ∈ clients then clients else clients.insert handle client

/-- `construct` is the outcome of `make_unique<AmxxMqttClient>(broker, clientId)`. -/
def make (construct : Except Thrown ObjectId) (mgr : MqttClientMgr) :
    Except Thrown Int × MqttClientMgr :=
  if maxClients ≤ Table.size mgr.clients then
    (.error (.mqtt tooManyClients), mgr)
  else if int32Max < mgr.nextHandle then
    (.error (.mqtt handlesExhausted), mgr)
  else
    let handle := toInt32 mgr.nextHandle
    match construct with
    | .error thrown => (.error thrown, mgr)
    | .ok object =>
        (.ok handle,
          { clients := emplace handle (bound object handle) mgr.clients
            nextHandle := (mgr.nextHandle + 1) % 2 ^ 64 })

def getClient (mgr : MqttClientMgr) (handle : Int) : Option AmxxMqttClient :=
  mgr.clients.lookup handle

theorem getClient_of_empty {mgr : MqttClientMgr} (empty : mgr.clients = ∅) (handle : Int) :
    mgr.getClient handle = none := by
  rw [getClient, empty, AList.lookup_empty]

/-- The manager after the handle is extracted, and the client whose destructor then runs. -/
def destroy (handle : Int) (mgr : MqttClientMgr) : Option AmxxMqttClient × MqttClientMgr :=
  (mgr.clients.lookup handle, { mgr with clients := mgr.clients.erase handle })

/-- The manager after the swap, and the clients destroyed when the swapped table goes. -/
def reset (mgr : MqttClientMgr) : List AmxxMqttClient × MqttClientMgr :=
  (Table.values mgr.clients, { mgr with clients := ∅ })

/-- Write through the pointer `getClient` returned. -/
def setClient (handle : Int) (client : AmxxMqttClient) (mgr : MqttClientMgr) : MqttClientMgr :=
  { mgr with clients := mgr.clients.insert handle client }

/-- A failed `make` returns the manager it was given. -/
theorem make_error {mgr after : MqttClientMgr} {construct : Except Thrown ObjectId}
    {thrown : Thrown} (failed : mgr.make construct = (.error thrown, after)) : after = mgr := by
  unfold make at failed
  split at failed
  · exact (Prod.mk.inj failed).2.symm
  · split at failed
    · exact (Prod.mk.inj failed).2.symm
    · cases construct with
      | error _ => exact (Prod.mk.inj failed).2.symm
      | ok _ => exact absurd (Prod.mk.inj failed).1 (by simp)

/-- A `make` succeeds only when the construction does. -/
theorem make_ok {mgr after : MqttClientMgr} {construct : Except Thrown ObjectId} {handle : Int}
    (succeeded : mgr.make construct = (.ok handle, after)) :
    ∃ object, construct = .ok object := by
  cases construct with
  | ok object => exact ⟨object, rfl⟩
  | error _ =>
      unfold make at succeeded
      split at succeeded
      · exact absurd (Prod.mk.inj succeeded).1 (by simp)
      · split at succeeded <;> exact absurd (Prod.mk.inj succeeded).1 (by simp)

/-! ## What every operation keeps -/

/-- The counter is positive and at most one past the last handle, the live handles are below it,
and no more than `maxClients` are live. -/
structure Valid (mgr : MqttClientMgr) : Prop where
  next_pos : 1 ≤ mgr.nextHandle
  next_le : mgr.nextHandle ≤ int32Max + 1
  live_pos : ∀ {handle}, handle ∈ mgr.clients → 1 ≤ handle
  live_lt : ∀ {handle}, handle ∈ mgr.clients → handle < mgr.nextHandle
  size_le : Table.size mgr.clients ≤ maxClients

theorem valid_initial : Valid initial where
  next_pos := by decide
  next_le := by decide
  live_pos member := absurd member (AList.notMem_empty _)
  live_lt member := absurd member (AList.notMem_empty _)
  size_le := by decide

/-- The handle a valid manager issues next is not in its table. -/
theorem Valid.next_notMem {mgr : MqttClientMgr} (valid : mgr.Valid) :
    (mgr.nextHandle : Int) ∉ mgr.clients :=
  fun member => Int.lt_irrefl _ (valid.live_lt member)

/-- What `make` does, case by case. -/
inductive MakeResult (construct : Except Thrown ObjectId) (mgr : MqttClientMgr) :
    Except Thrown Int × MqttClientMgr → Prop
  | full : Table.size mgr.clients = maxClients →
      MakeResult construct mgr (.error (.mqtt tooManyClients), mgr)
  | exhausted : Table.size mgr.clients < maxClients → mgr.nextHandle = int32Max + 1 →
      MakeResult construct mgr (.error (.mqtt handlesExhausted), mgr)
  | threw {thrown : Thrown} : Table.size mgr.clients < maxClients →
      mgr.nextHandle ≤ int32Max → construct = .error thrown →
      MakeResult construct mgr (.error thrown, mgr)
  | made {object : ObjectId} : Table.size mgr.clients < maxClients →
      mgr.nextHandle ≤ int32Max → construct = .ok object →
      MakeResult construct mgr (.ok mgr.nextHandle,
        { clients := mgr.clients.insert mgr.nextHandle (bound object mgr.nextHandle)
          nextHandle := mgr.nextHandle + 1 })

/-- On a valid manager neither the cast nor the increment wraps, and `emplace` inserts. -/
theorem Valid.make_cases {mgr : MqttClientMgr} (valid : mgr.Valid)
    (construct : Except Thrown ObjectId) : MakeResult construct mgr (mgr.make construct) := by
  have bound := valid.next_le
  have size := valid.size_le
  unfold make
  split
  · exact .full (by omega)
  · split
    · exact .exhausted (by omega) (by omega)
    · have small : mgr.nextHandle ≤ int32Max := by omega
      have increment : (mgr.nextHandle + 1) % 2 ^ 64 = mgr.nextHandle + 1 :=
        Nat.mod_eq_of_lt (by unfold int32Max at small; omega)
      cases construct with
      | error thrown => exact .threw (by omega) small rfl
      | ok object =>
          simp only [toInt32_of_le small, increment, emplace, if_neg valid.next_notMem]
          exact .made (by omega) small rfl

theorem Valid.make {mgr : MqttClientMgr} (valid : mgr.Valid) (construct : Except Thrown ObjectId) :
    (mgr.make construct).2.Valid := by
  have cases := valid.make_cases construct
  generalize mgr.make construct = result at cases
  cases cases with
  | full _ => exact valid
  | exhausted _ _ => exact valid
  | threw _ _ _ => exact valid
  | made room small _ =>
      refine ⟨by simp, by simpa using small, ?_, ?_, ?_⟩
      · intro handle member
        rcases (AList.mem_insert _).mp member with rfl | member
        · exact_mod_cast valid.next_pos
        · exact valid.live_pos member
      · intro handle member
        rcases (AList.mem_insert _).mp member with rfl | member
        · push_cast
          omega
        · have below := valid.live_lt member
          push_cast
          omega
      · show Table.size (AList.insert _ _ _) ≤ maxClients
        rw [Table.size_insert_of_notMem valid.next_notMem]
        omega

theorem Valid.destroy {mgr : MqttClientMgr} (valid : mgr.Valid) (handle : Int) :
    (mgr.destroy handle).2.Valid where
  next_pos := valid.next_pos
  next_le := valid.next_le
  live_pos member := valid.live_pos ((AList.mem_erase.mp member).2)
  live_lt member := valid.live_lt ((AList.mem_erase.mp member).2)
  size_le := Nat.le_trans Table.size_erase_le valid.size_le

theorem Valid.reset {mgr : MqttClientMgr} (valid : mgr.Valid) : mgr.reset.2.Valid where
  next_pos := valid.next_pos
  next_le := valid.next_le
  live_pos member := absurd member (AList.notMem_empty _)
  live_lt member := absurd member (AList.notMem_empty _)
  size_le := Nat.zero_le _

theorem Valid.setClient {mgr : MqttClientMgr} (valid : mgr.Valid) {handle : Int}
    {client old : AmxxMqttClient} (live : mgr.getClient handle = some old) :
    (mgr.setClient handle client).Valid := by
  have present : handle ∈ mgr.clients := AList.lookup_isSome.mp (by
    rw [show mgr.clients.lookup handle = some old from live]; rfl)
  refine ⟨valid.next_pos, valid.next_le, ?_, ?_, ?_⟩
  · intro other member
    rcases (AList.mem_insert _).mp member with rfl | member
    exacts [valid.live_pos present, valid.live_pos member]
  · intro other member
    rcases (AList.mem_insert _).mp member with rfl | member
    exacts [valid.live_lt present, valid.live_lt member]
  · show Table.size (AList.insert _ _ _) ≤ maxClients
    rw [Table.size_insert_of_mem present]
    exact valid.size_le

end MqttClientMgr

end AmxxMqtt
