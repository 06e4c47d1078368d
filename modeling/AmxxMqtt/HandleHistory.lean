import AmxxMqtt.Lib.Names
import AmxxMqtt.Lib.Transition
import AmxxMqtt.MqttClientMgr

/-!
# Client handles are never reused

The abstract client table is a history of issued names: handles issued to client objects,
retired by `destroy`, cleared by `reset`.  `Tracks` says that a manager is the concrete table of
such a history; every operation keeps it, whatever the construction of a client does, so the
facts about names carry over to whole runs of the manager.
-/

namespace AmxxMqtt

/-- What happens to the client table. -/
abbrev HandleEvent := Names.Event Int ObjectId

/-- The manager's table is the live part of the history, and its counter is one past every
handle issued so far. -/
structure Tracks (mgr : MqttClientMgr) (log : List HandleEvent) : Prop where
  valid : mgr.Valid
  live : ∀ handle, (mgr.getClient handle).map AmxxMqttClient.object = Names.live log handle
  issued : ∀ {handle}, handle ∈ Names.names log ↔ 1 ≤ handle ∧ handle < mgr.nextHandle
  increasing : (Names.names log).Pairwise (· > ·)

namespace Tracks

variable {mgr : MqttClientMgr} {log : List HandleEvent}

theorem initial : Tracks .initial [] where
  valid := MqttClientMgr.valid_initial
  live _ := rfl
  issued := by
    simp only [Names.names, List.not_mem_nil, MqttClientMgr.initial, false_iff, not_and]
    omega
  increasing := List.Pairwise.nil

theorem distinct (tracks : Tracks mgr log) : (Names.names log).Nodup :=
  tracks.increasing.imp fun {_ _} less => Int.ne_of_gt less

theorem live_iff (tracks : Tracks mgr log) {handle : Int} :
    (mgr.getClient handle).isSome ↔ (Names.live log handle).isSome := by
  rw [← tracks.live handle, Option.isSome_map]

theorem mem_clients_iff (tracks : Tracks mgr log) {handle : Int} :
    handle ∈ mgr.clients ↔ (Names.live log handle).isSome :=
  AList.lookup_isSome.symm.trans tracks.live_iff

/-- A successful `make` issues the next handle to the object it built. -/
theorem make (tracks : Tracks mgr log) {object : ObjectId} {handle : Int}
    {after : MqttClientMgr} (made : mgr.make (.ok object) = (.ok handle, after)) :
    handle = mgr.nextHandle ∧
      after.clients = mgr.clients.insert handle (MqttClientMgr.bound object handle) ∧
      handle ∉ mgr.clients ∧ Tracks after (.issued handle object :: log) := by
  have cases := tracks.valid.make_cases (.ok object)
  have valid := tracks.valid.make (.ok object)
  rw [made] at cases valid
  cases cases with
  | @made object' room small built =>
      cases built
      refine ⟨rfl, rfl, tracks.valid.next_notMem, valid, fun handle => ?_, fun {handle} => ?_, ?_⟩
      · simp only [MqttClientMgr.getClient, Table.lookup_insert_iff, Names.live]
        by_cases same : handle = mgr.nextHandle
        · simp only [same, ↓reduceIte, Option.map_some, MqttClientMgr.bound]
        · simp only [same, Ne.symm same, ↓reduceIte]
          exact tracks.live handle
      · simp only [Names.names, List.mem_cons, tracks.issued]
        push_cast
        have positive := valid.next_pos
        have next := tracks.valid.next_pos
        omega
      · refine List.pairwise_cons.mpr ⟨fun earlier member => ?_, tracks.increasing⟩
        exact (tracks.issued.mp member).2

theorem destroy (tracks : Tracks mgr log) (handle : Int) :
    Tracks (mgr.destroy handle).2 (.retired handle :: log) where
  valid := tracks.valid.destroy handle
  live other := by
    simp only [MqttClientMgr.destroy, MqttClientMgr.getClient, Table.lookup_erase_iff, Names.live]
    by_cases same : other = handle
    · simp only [same, ↓reduceIte, Option.map_none]
    · simp only [same, Ne.symm same, ↓reduceIte]
      exact tracks.live other
  issued := tracks.issued
  increasing := tracks.increasing

theorem reset (tracks : Tracks mgr log) : Tracks mgr.reset.2 (.cleared :: log) where
  valid := tracks.valid.reset
  live _ := rfl
  issued := tracks.issued
  increasing := tracks.increasing

/-- Writing through a client pointer keeps the object. -/
theorem setClient (tracks : Tracks mgr log) {handle : Int} {client old : AmxxMqttClient}
    (live : mgr.getClient handle = some old) (same : client.object = old.object) :
    Tracks (mgr.setClient handle client) log where
  valid := tracks.valid.setClient live
  live other := by
    rw [← tracks.live other]
    simp only [MqttClientMgr.setClient, MqttClientMgr.getClient, Table.lookup_insert_iff]
    split
    · rename_i here
      rw [here, show mgr.clients.lookup handle = some old from live, Option.map_some,
        Option.map_some, same]
    · rfl
  issued := tracks.issued
  increasing := tracks.increasing

/-- The handle a client is found under was issued to it. -/
theorem issued_of_getClient (tracks : Tracks mgr log) {handle : Int} {client : AmxxMqttClient}
    (found : mgr.getClient handle = some client) : .issued handle client.object ∈ log :=
  Names.issued_of_live (by rw [← tracks.live handle, found, Option.map_some])

/-- The handles that stand for a client, each once. -/
def liveHandles (log : List HandleEvent) : List Int :=
  (Names.names log).filter fun handle => (Names.live log handle).isSome

theorem size_eq (tracks : Tracks mgr log) :
    Table.size mgr.clients = (liveHandles log).length := by
  refine List.Perm.length_eq ((List.perm_ext_iff_of_nodup mgr.clients.keys_nodup
    (tracks.distinct.filter _)).mpr fun handle => ?_)
  rw [List.mem_filter, ← AList.mem_keys, tracks.mem_clients_iff]
  refine ⟨fun live => ⟨?_, live⟩, And.right⟩
  obtain ⟨object, stands⟩ := Option.isSome_iff_exists.mp live
  exact Names.mem_names_of_live stands

/-- The counter has passed the last handle exactly when that handle was issued. -/
theorem exhausted_iff (tracks : Tracks mgr log) :
    mgr.nextHandle = int32Max + 1 ↔ (int32Max : Int) ∈ Names.names log := by
  rw [tracks.issued]
  have bound := tracks.valid.next_le
  unfold int32Max at bound ⊢
  omega

/-- `make` fails exactly when the table is full, the handles are used up or the construction
throws. -/
theorem make_fails_iff (tracks : Tracks mgr log) (construct : Except Thrown ObjectId) :
    (∃ thrown, (mgr.make construct).1 = .error thrown) ↔
      (liveHandles log).length = MqttClientMgr.maxClients ∨
        (int32Max : Int) ∈ Names.names log ∨ ∃ thrown, construct = .error thrown := by
  rw [← tracks.exhausted_iff, ← tracks.size_eq]
  have cases := tracks.valid.make_cases construct
  generalize mgr.make construct = result at cases
  cases cases with
  | full full => exact iff_of_true ⟨_, rfl⟩ (.inl full)
  | exhausted _ exhausted => exact iff_of_true ⟨_, rfl⟩ (.inr (.inl exhausted))
  | threw _ _ threw => exact iff_of_true ⟨_, rfl⟩ (.inr (.inr ⟨_, threw⟩))
  | made room small built =>
      refine iff_of_false (by simp) ?_
      rintro (full | exhausted | ⟨thrown, threw⟩)
      · omega
      · omega
      · cases built.symm.trans threw

end Tracks

/-! ## Runs of the manager -/

/-- One call of the manager. -/
inductive MgrCall where
  | make (construct : Except Thrown ObjectId)
  | getClient (handle : Int)
  | destroy (handle : Int)
  | reset

/-- A manager and what has happened to its table, newest first. -/
structure MgrRun where
  mgr : MqttClientMgr
  log : List HandleEvent

namespace MgrRun

def initial : MgrRun := ⟨.initial, []⟩

def step (s : MgrRun) : MgrCall → Option MgrRun
  | .make construct =>
      match construct, s.mgr.make construct with
      | .ok object, (.ok handle, mgr) => some ⟨mgr, .issued handle object :: s.log⟩
      | _, (_, mgr) => some ⟨mgr, s.log⟩
  | .getClient _ => some s
  | .destroy handle => some ⟨(s.mgr.destroy handle).2, .retired handle :: s.log⟩
  | .reset => some ⟨s.mgr.reset.2, .cleared :: s.log⟩

/-- The manager is the one its history leads to. -/
def Tracked (s : MgrRun) : Prop :=
  Tracks s.mgr s.log

theorem step_tracked {s t : MgrRun} {call : MgrCall} (taken : s.step call = some t)
    (tracks : s.Tracked) : t.Tracked := by
  cases call with
  | make construct =>
      cases made : s.mgr.make construct with
      | mk result after =>
          cases result with
          | ok handle =>
              obtain ⟨object, rfl⟩ := MqttClientMgr.make_ok made
              simp only [step, made, Option.some.injEq] at taken
              subst taken
              exact (Tracks.make tracks made).2.2.2
          | error thrown =>
              have same := MqttClientMgr.make_error made
              subst same
              cases construct <;> simp only [step, made, Option.some.injEq] at taken <;>
                subst taken <;> exact tracks
  | getClient handle =>
      cases taken
      exact tracks
  | destroy handle =>
      cases taken
      exact Tracks.destroy tracks handle
  | reset =>
      cases taken
      exact Tracks.reset tracks

theorem run_tracked {s t : MgrRun} {calls : List MgrCall}
    (ran : Transition.run step s calls = some t) (tracks : s.Tracked) : t.Tracked :=
  Transition.run_invariant (fun _ taken => step_tracked taken) ran (fun _ _ => True.intro) tracks

theorem step_log {s t : MgrRun} {call : MgrCall} (taken : s.step call = some t) :
    s.log <:+ t.log := by
  cases call with
  | make construct =>
      cases made : s.mgr.make construct with
      | mk result after =>
          cases result with
          | ok handle =>
              obtain ⟨object, rfl⟩ := MqttClientMgr.make_ok made
              simp only [step, made, Option.some.injEq] at taken
              subst taken
              exact List.suffix_cons _ _
          | error thrown =>
              cases construct <;> simp only [step, made, Option.some.injEq] at taken <;>
                subst taken <;> exact List.suffix_refl _
  | getClient handle =>
      cases taken
      exact List.suffix_refl _
  | destroy handle =>
      cases taken
      exact List.suffix_cons _ _
  | reset =>
      cases taken
      exact List.suffix_cons _ _

end MgrRun

/-- **Handles are never reused.**  After any run of the manager: the handles issued are strictly
increasing and positive 32-bit values, at most `maxClients` stand for a client, a handle is found
exactly when it was issued and neither destroyed nor reset since, destroying any other handle
changes nothing, the next handle is the counter itself, and `make` fails exactly for the three
reasons, leaving the manager as it was; once the last handle is issued it fails in every
continuation. -/
theorem handles_never_reused {calls : List MgrCall} {s : MgrRun}
    (ran : Transition.run MgrRun.step .initial calls = some s) :
    (Names.names s.log).Pairwise (· > ·) ∧
    (∀ handle ∈ Names.names s.log, 1 ≤ handle ∧ handle ≤ 2 ^ 31 - 1) ∧
    (Tracks.liveHandles s.log).length ≤ 10000 ∧
    (∀ handle object, (∃ client, s.mgr.getClient handle = some client ∧ client.object = object) ↔
      ∃ newer older, s.log = newer ++ .issued handle object :: older ∧
        .retired handle ∉ newer ∧ .cleared ∉ newer) ∧
    (∀ handle, s.mgr.getClient handle = none → s.mgr.destroy handle = (none, s.mgr)) ∧
    (∀ construct handle, (s.mgr.make construct).1 = .ok handle → handle = s.mgr.nextHandle) ∧
    (∀ construct, (∃ thrown, (s.mgr.make construct).1 = .error thrown) ↔
      (Tracks.liveHandles s.log).length = 10000 ∨ (2 ^ 31 - 1 : Int) ∈ Names.names s.log ∨
        ∃ thrown, construct = .error thrown) ∧
    (∀ construct thrown, (s.mgr.make construct).1 = .error thrown →
      (s.mgr.make construct).2 = s.mgr) ∧
    ((2 ^ 31 - 1 : Int) ∈ Names.names s.log → ∀ calls t,
      Transition.run MgrRun.step s calls = some t →
      ∀ construct, ∃ thrown, (t.mgr.make construct).1 = .error thrown) := by
  have tracks : Tracks s.mgr s.log := MgrRun.run_tracked ran Tracks.initial
  refine ⟨tracks.increasing, fun handle member => ?_, ?_, fun handle object => ?_,
    fun handle dead => ?_, fun construct handle made => ?_, tracks.make_fails_iff,
    fun construct thrown failed => ?_, fun last calls t continued construct => ?_⟩
  · have bounds := tracks.issued.mp member
    have next := tracks.valid.next_le
    unfold int32Max at next
    omega
  · exact tracks.size_eq ▸ tracks.valid.size_le
  · rw [← Names.live_eq_some_iff_of_nodup tracks.distinct, ← tracks.live handle,
      Option.map_eq_some_iff]
  · have absent : handle ∉ s.mgr.clients := AList.lookup_eq_none.mp dead
    simp only [MqttClientMgr.destroy, Table.erase_of_notMem absent]
    exact Prod.ext dead rfl
  · cases result : s.mgr.make construct with
    | mk outcome after =>
        rw [result] at made
        cases made
        obtain ⟨object, rfl⟩ := MqttClientMgr.make_ok result
        exact (tracks.make result).1
  · cases result : s.mgr.make construct with
    | mk outcome after =>
        rw [result] at failed
        cases failed
        exact MqttClientMgr.make_error result
  · have later : Tracks t.mgr t.log := MgrRun.run_tracked continued tracks
    have kept : s.log <:+ t.log := Transition.run_suffix MgrRun.step_log continued
    exact (later.make_fails_iff construct).mpr (.inr (.inl (Names.names_mono kept last)))

/-- Two clients made, the first destroyed, a construction that throws, and a reset. -/
theorem handles_never_reused_recycled :
    ∃ s, Transition.run MgrRun.step .initial [.make (.ok 7), .make (.ok 8), .destroy 1,
        .make (.error .other), .reset] = some s ∧
      s.log = [.cleared, .retired 1, .issued 2 8, .issued 1 7] ∧
      (Names.names s.log).Pairwise (· > ·) := by
  have logged : (Transition.run MgrRun.step .initial [.make (.ok 7), .make (.ok 8), .destroy 1,
      .make (.error .other), .reset]).map MgrRun.log =
        some [.cleared, .retired 1, .issued 2 8, .issued 1 7] := by decide +kernel
  obtain ⟨s, ran, log⟩ := Option.map_eq_some_iff.mp logged
  exact ⟨s, ran, log, (handles_never_reused ran).1⟩

end AmxxMqtt
