import AmxxMqtt.World

/-!
# Rejected native calls

A native rejects a call by logging an error and returning 0.  A rejected call leaves the module's
state as it was, and an `mqtt_connect` Paho refuses consumes the options it was given, except
where the source leaves a residue: looking up an options handle with no table entry inserts one,
and a number reserved for an options object whose construction throws stays reserved.
`rejected_keepsState_iff` says that these are the only two ways.
-/

namespace AmxxMqtt

variable {P : PahoOptions}

/-- The call returned 0 after logging the error. -/
def NativeReturn.Rejected (r : NativeReturn P) (error : NativeError) : Prop :=
  r.value = 0 ∧ .logError error ∈ r.effects

/-- What a rejected call may change: nothing, or, when it is an `mqtt_connect` refused by Paho,
exactly the table entry and the used index of its options handle. -/
def KeepsState (native : Native) (params : List Cell) (g : Globals P) (r : NativeReturn P)
    (error : NativeError) : Prop :=
  match native, error with
  | .mqttConnect, .exception _ =>
      ∃ handle, params[2]? = some handle ∧
        r.globals = { g with options :=
          ⟨g.options.options.erase handle, g.options.indexUsed.erase handle⟩ }
  | _, _ => r.globals = g

/-- Every options handle the call looks up has a table entry, and no number is reserved for an
object that is then not built. -/
def NoResidue (host : Host) (native : Native) (params : List Cell) (g : Globals P) : Prop :=
  (∀ handle, native.optionsLookup params g = some handle → handle ∈ g.options.options) ∧
    (native = .mqttCreateConnectOptions →
      host.optionsFailure = none ∨ g.options.freeIndex = none)

theorem keepsState_of_eq {native : Native} {params : List Cell} {g : Globals P}
    {r : NativeReturn P} {error : NativeError}
    (unsent : native = .mqttConnect → ∀ exception, error ≠ .exception exception) :
    KeepsState native params g r error ↔ r.globals = g := by
  unfold KeepsState
  split
  · exact absurd rfl (unsent rfl _)
  · exact Iff.rfl

/-- The lookup of a handle with no object keeps the state exactly when the handle has an
entry. -/
theorem lookup_keepsState_iff {g : Globals P} {handle : Cell} :
    ({ g with options := (g.options.getOptions handle).2 } : Globals P) = g ↔
      handle ∈ g.options.options := by
  rw [← ConnectOptionMgr.getOptions_snd_eq_iff]
  constructor
  · intro same
    exact congrArg Globals.options same
  · intro same
    rw [same]

/-- A call that fails after looking up a handle with no object. -/
theorem keepsState_iff_of_looked {host : Host} {native : Native} {params : List Cell}
    {g : Globals P} {r : NativeReturn P} {error : NativeError} {handle : Cell}
    (looked : native.optionsLookup params g = some handle)
    (left : r.globals = { g with options := (g.options.getOptions handle).2 })
    (unsent : native = .mqttConnect → ∀ exception, error ≠ .exception exception)
    (notMade : native ≠ .mqttCreateConnectOptions) :
    KeepsState native params g r error ↔ NoResidue host native params g := by
  rw [keepsState_of_eq unsent, left, lookup_keepsState_iff]
  constructor
  · intro present
    refine ⟨fun other found => ?_, fun made => absurd made notMade⟩
    cases found.symm.trans looked
    exact present
  · intro quiet
    exact quiet.1 handle looked

/-- **Rejected calls.**  A rejected call keeps the state if and only if it leaves no residue. -/
theorem rejected_keepsState_iff {host : Host} {native : Native} {args : List Cell}
    {g : Globals P} {r : NativeReturn P} {error : NativeError}
    (returned : native.invoke host (frame args) g = .ok r) (rejected : r.Rejected error) :
    KeepsState native (frame args) g r error ↔ NoResidue host native (frame args) g := by
  rcases rejected with ⟨zero, logged⟩
  cases native.returns returned with
  | rejected known unsent full looked =>
      simp only [rejection, List.mem_singleton, Effect.logError.injEq] at logged
      subst logged
      exact (iff_true_intro ((keepsState_of_eq unsent).mpr rfl)).trans
        (iff_true_intro ⟨fun handle => looked, fun same => .inr (full same)⟩).symm
  | created made => simp at logged
  | destroyed arg => simp at logged
  | @connectUnknown handle optionsHandle client arg optionsArg live dead =>
      simp only [rejection, List.mem_singleton, Effect.logError.injEq] at logged
      subst logged
      have count : 2 ≤ argCount (frame args) := by
        rw [argCount_frame]
        exact (List.getElem?_eq_some_iff.mp (show args[1]? = some optionsHandle from optionsArg)).1
      have looked : Native.mqttConnect.optionsLookup (frame args) g = some optionsHandle := by
        simp only [Native.optionsLookup, if_pos count, arg, live, Option.bind_some, optionsArg]
      exact keepsState_iff_of_looked looked rfl (by simp) (by simp)
  | connected arg optionsArg live found accepted => simp at logged
  | @connectThrew handle optionsHandle client option exception arg optionsArg live found threw =>
      simp only [List.mem_cons, reduceCtorEq, Effect.logError.injEq, List.not_mem_nil, or_false,
        false_or] at logged
      subst logged
      have present := ConnectOptionMgr.mem_of_object found
      refine iff_of_true ⟨optionsHandle, optionsArg, ?_⟩ ⟨fun other looked => ?_, by simp⟩
      · obtain ⟨entry, lookedUp⟩ := Option.isSome_iff_exists.mp (AList.lookup_isSome.mpr present)
        simp only [ConnectOptionMgr.destroy, lookedUp]
      · simp only [Native.optionsLookup, arg, live, Option.bind_some, optionsArg] at looked
        split at looked
        · cases looked
          exact present
        · cases looked
  | disconnectSent arg live accepted => simp at zero
  | disconnectQuiet arg live threw silent => simp at zero
  | disconnectThrew arg live threw copied => simp at zero
  | isConnected arg live => simp at logged
  | requested kind accepted => simp at zero
  | @requestThrew native object request exception kind threw =>
      have plain : native.usesOptions = false := by
        cases native <;> first | rfl | cases kind
      refine iff_of_true ((keepsState_of_eq fun same => ?_).mpr rfl) ⟨?_, fun same => ?_⟩
      · rw [same] at plain
        cases plain
      · simp [Native.optionsLookup_eq_none plain]
      · rw [same] at plain
        cases plain
  | stored => simp at zero
  | @optionsMade index free built => simp at logged
  | @optionsFailed index stage exception free failed =>
      rw [keepsState_of_eq (by simp)]
      refine iff_of_false (fun same => ?_) fun quiet => ?_
      · have unused := (ConnectOptionMgr.freeIndex_eq_some free).1
        have used : index ∈ g.options.indexUsed := by
          rw [← show (insert index g.options.indexUsed) = g.options.indexUsed from
            congrArg (fun globals => globals.options.indexUsed) same]
          exact Finset.mem_insert_self _ _
        exact unused used
      · rcases quiet.2 rfl with none | none
        · cases none.symm.trans failed
        · cases none.symm.trans free
  | @setUnknown optionsHandle count arg dead =>
      simp only [rejection, List.mem_singleton, Effect.logError.injEq] at logged
      subst logged
      have looked : Native.mqttSetOptions.optionsLookup (frame args) g = some optionsHandle := by
        simp only [Native.optionsLookup, if_pos count, arg]
      exact keepsState_iff_of_looked looked rfl (by simp) (by simp)
  | set arg nameArg_eq valueArg named found => simp at zero

/-- A set on a number never issued is rejected, and leaves an entry for that number behind. -/
theorem rejected_set_leaves_entry :
    ¬ ∀ (host : Host) (native : Native) (args : List Cell) (r : NativeReturn .plain)
        (error : NativeError), native.invoke host (frame args) Globals.initial = .ok r →
          r.Rejected error → KeepsState native (frame args) Globals.initial r error := by
  intro always
  have kept := always .plain .mqttSetOptions [5, 0, 0] _ (.invalidOptionsHandle 5) rfl
    ⟨rfl, List.mem_singleton.mpr rfl⟩
  have keys := congrArg (fun g : Globals .plain => g.options.options.keys) kept
  exact absurd keys (by decide)

/-- An object is made and goes to Paho. -/
def consumedOptions : List Action :=
  [.call (.native .mqttCreate .plain [0, 0]), .call (.native .mqttCreateConnectOptions .plain []),
    .call (.native .mqttConnect .plain [1, 1])]

def setConsumed : Action := .call (.native .mqttSetOptions .plain [1, 0, 0])

/-- The number has no entry any more, so setting an option through it leaves one, and doing so
again leaves everything as it is. -/
theorem rejected_keepsState_iff_consumed : ∃ (w t : World .plain)
    (first again : NativeReturn .plain),
    Transition.run World.step World.initial consumedOptions = some w ∧
      Native.mqttSetOptions.invoke .plain (frame [1, 0, 0]) w.globals = .ok first ∧
      ¬ KeepsState .mqttSetOptions (frame [1, 0, 0]) w.globals first (.invalidOptionsHandle 1) ∧
      Transition.run World.step World.initial (consumedOptions ++ [setConsumed]) = some t ∧
      Native.mqttSetOptions.invoke .plain (frame [1, 0, 0]) t.globals = .ok again ∧
      KeepsState .mqttSetOptions (frame [1, 0, 0]) t.globals again (.invalidOptionsHandle 1) := by
  have before : (Transition.run World.step (World.initial : World .plain) consumedOptions).map
      (fun w => (w.globals.options.options.keys, (w.globals.options.object 1).isNone)) =
        some ([], true) := by decide +kernel
  have after : (Transition.run World.step (World.initial : World .plain)
      (consumedOptions ++ [setConsumed])).map
        (fun w => (w.globals.options.options.keys, (w.globals.options.object 1).isNone)) =
          some ([1], true) := by decide +kernel
  have rejects {g : Globals .plain} (dead : (g.options.object 1).isNone = true) :
      Native.mqttSetOptions.invoke .plain (frame [1, 0, 0]) g =
        .ok (rejection { g with options := (g.options.getOptions 1).2 }
          (.invalidOptionsHandle 1)) := by
    have looked := ConnectOptionMgr.getOptions_fst 1 g.options
    rw [Option.isNone_iff_eq_none.mp dead] at looked
    simp [Native.invoke, mqttSetOptions, readArg, looked, reject, frame, argCount]
  obtain ⟨w, ran, state⟩ := Option.map_eq_some_iff.mp before
  obtain ⟨t, later, state'⟩ := Option.map_eq_some_iff.mp after
  obtain ⟨keys, dead⟩ := Prod.mk.inj state
  obtain ⟨keys', dead'⟩ := Prod.mk.inj state'
  refine ⟨w, t, _, _, ran, rejects dead, ?_, later, rejects dead', ?_⟩
  · refine (rejected_keepsState_iff (rejects dead) ⟨rfl, List.mem_singleton.mpr rfl⟩).not.mpr ?_
    intro quiet
    have entry : 1 ∈ w.globals.options.options.keys := quiet.1 1 rfl
    rw [keys] at entry
    cases entry
  · refine (rejected_keepsState_iff (rejects dead') ⟨rfl, List.mem_singleton.mpr rfl⟩).mpr
      ⟨fun handle looked => ?_, by simp⟩
    cases looked
    show 1 ∈ t.globals.options.options.keys
    rw [keys']
    decide

end AmxxMqtt
