import AmxxMqtt.Natives

/-!
# What one native call can do

`Returns` lists every way a native can return, with the exact return: one constructor per exit
that matters, and one (`rejected`) for the exits taken before anything was touched.
`Native.returns` is the inversion; facts about a call are read off it by cases, and no later
proof unfolds a native.
-/

namespace AmxxMqtt

variable {P : PahoOptions} {host : Host} {params : List Cell} {g : Globals P}
  {r : NativeReturn P}

theorem readArg_eq_ok {index : Nat} {body : Cell → NativeOutcome P} :
    readArg params index body = .ok r ↔
      ∃ cell, params[index]? = some cell ∧ body cell = .ok r := by
  unfold readArg
  cases params[index]? with
  | none => simp only [reduceCtorEq, false_and, exists_false]
  | some cell => simp only [Option.some.injEq, exists_eq_left']

theorem readOptionalArg_eq_ok {index : Nat} {absent : Cell} {body : Cell → NativeOutcome P}
    (returned : readOptionalArg params index absent body = .ok r) :
    ∃ cell, body cell = .ok r := by
  unfold readOptionalArg at returned
  split at returned
  · obtain ⟨cell, _, inner⟩ := readArg_eq_ok.mp returned
    exact ⟨cell, inner⟩
  · exact ⟨absent, returned⟩

/-- The natives that pass one request to Paho and nothing else. -/
def Native.requests : Native → Bool
  | .mqttSubscribe | .mqttUnsubscribe | .mqttPublish => true
  | _ => false

/-- The natives that use the connect options. -/
def Native.usesOptions : Native → Bool
  | .mqttConnect | .mqttCreateConnectOptions | .mqttSetOptions => true
  | _ => false

/-- The options handle a call gets as far as looking up. -/
def Native.optionsLookup (native : Native) (params : List Cell) (g : Globals P) : Option Cell :=
  match native with
  | .mqttConnect =>
      if 2 ≤ argCount params then
        params[1]?.bind fun handle => (g.clients.getClient handle).bind fun _ => params[2]?
      else none
  | .mqttSetOptions => if 3 ≤ argCount params then params[1]? else none
  | _ => none

/-- Every return of a native from the state `g`. -/
inductive Returns (host : Host) (params : List Cell) (g : Globals P) :
    Native → NativeReturn P → Prop
  | rejected {native : Native} {error : NativeError}
      (known : ∀ handle, error ≠ .invalidOptionsHandle handle)
      (unsent : native = .mqttConnect → ∀ exception, error ≠ .exception exception)
      (full : native = .mqttCreateConnectOptions → g.options.freeIndex = none)
      (looked : ∀ {handle}, native.optionsLookup params g = some handle →
        handle ∈ g.options.options) :
      Returns host params g native (rejection g error)
  | created {handle : Int} {object : ObjectId} {clients : MqttClientMgr}
      (made : g.clients.make (.ok object) = (.ok handle, clients)) :
      Returns host params g .mqttCreate
        { value := handle, globals := { g with clients }, effects := [.constructed object] }
  | destroyed {handle : Cell} (arg : params[1]? = some handle) :
      Returns host params g .mqttDestroy
        { value := 1, globals := { g with clients := (g.clients.destroy handle).2 }
          removed := (g.clients.destroy handle).1 }
  | connectUnknown {handle optionsHandle : Cell} {client : AmxxMqttClient}
      (arg : params[1]? = some handle) (optionsArg : params[2]? = some optionsHandle)
      (live : g.clients.getClient handle = some client)
      (dead : g.options.object optionsHandle = none) :
      Returns host params g .mqttConnect
        (rejection { g with options := (g.options.getOptions optionsHandle).2 }
          (.invalidOptionsHandle optionsHandle))
  | connected {handle optionsHandle : Cell} {client : AmxxMqttClient} {option : ConnectOption P}
      (arg : params[1]? = some handle) (optionsArg : params[2]? = some optionsHandle)
      (live : g.clients.getClient handle = some client)
      (found : g.options.object optionsHandle = some option) (accepted : host.request = none) :
      Returns host params g .mqttConnect
        { value := 1, globals := { g with options := g.options.destroy optionsHandle }
          effects := [.request client.object (.connect option.option)] }
  | connectThrew {handle optionsHandle : Cell} {client : AmxxMqttClient}
      {option : ConnectOption P} {exception : PahoException}
      (arg : params[1]? = some handle) (optionsArg : params[2]? = some optionsHandle)
      (live : g.clients.getClient handle = some client)
      (found : g.options.object optionsHandle = some option)
      (threw : host.request = some (.mqtt exception)) :
      Returns host params g .mqttConnect
        { value := 0, globals := { g with options := g.options.destroy optionsHandle }
          effects := [.request client.object (.connect option.option),
            .logError (.exception exception)] }
  | disconnectSent {handle : Cell} {client : AmxxMqttClient}
      (arg : params[1]? = some handle) (live : g.clients.getClient handle = some client)
      (accepted : host.request = none) :
      Returns host params g .mqttDisconnect
        { value := 1, globals := g, effects := [.request client.object .disconnect] }
  | disconnectQuiet {handle : Cell} {client : AmxxMqttClient} {exception : PahoException}
      (arg : params[1]? = some handle) (live : g.clients.getClient handle = some client)
      (threw : host.request = some (.mqtt exception))
      (silent : client.base.copyHandler .disconnected = none) :
      Returns host params g .mqttDisconnect
        { value := 1, globals := g, effects := [.request client.object .disconnect] }
  | disconnectThrew {handle : Cell} {client : AmxxMqttClient} {exception : PahoException}
      {handler : BoundHandler}
      (arg : params[1]? = some handle) (live : g.clients.getClient handle = some client)
      (threw : host.request = some (.mqtt exception))
      (copied : client.base.copyHandler .disconnected = some handler) :
      Returns host params g .mqttDisconnect
        { value := 1
          globals := { g with
            queue := g.queue.enqueueCallback
              (handler.invoke { reasonCode := normalDisconnection }).event }
          effects := [.request client.object .disconnect,
            .dispatched client.object
              (handler.invoke { reasonCode := normalDisconnection })] }
  | isConnected {handle : Cell} {client : AmxxMqttClient}
      (arg : params[1]? = some handle) (live : g.clients.getClient handle = some client) :
      Returns host params g .mqttIsConnect
        { value := if client.base.isConnected then 1 else 0, globals := g }
  | requested {native : Native} {object : ObjectId} {request : PahoRequest P}
      (kind : native.requests = true) (accepted : host.request = none) :
      Returns host params g native
        { value := 1, globals := g, effects := [.request object request] }
  | requestThrew {native : Native} {object : ObjectId} {request : PahoRequest P}
      {exception : PahoException}
      (kind : native.requests = true) (threw : host.request = some (.mqtt exception)) :
      Returns host params g native
        { value := 0, globals := g
          effects := [.request object request, .logError (.exception exception)] }
  | stored {native : Native} {type : CallbackType} {handle name : Cell}
      {client : AmxxMqttClient} {id : Int} (kind : native.callbackType = some type)
      (arg : params[1]? = some handle) (nameArg : params[2]? = some name)
      (live : g.clients.getClient handle = some client)
      (registered : host.registerSPForwardByName (host.string name) type.signature = id)
      (valid : id ≠ -1) :
      Returns host params g native
        { value := 1
          globals := { g with
            clients := g.clients.setClient handle (client.setForwardId type id).1 }
          effects := .registered id type.signature ::
            (client.setForwardId type id).2.map .unregistered }
  | optionsMade {index : Int} (free : g.options.freeIndex = some index)
      (built : host.optionsFailure = none) :
      Returns host params g .mqttCreateConnectOptions
        { value := index
          globals := { g with options :=
            { options := g.options.options.insert index (some ⟨P.version5, P.noProperties⟩)
              indexUsed := insert index g.options.indexUsed } } }
  | optionsFailed {index : Int} {stage : OptionsStage} {exception : PahoException}
      (free : g.options.freeIndex = some index)
      (failed : host.optionsFailure = some (stage, .mqtt exception)) :
      Returns host params g .mqttCreateConnectOptions
        (rejection { g with options :=
            { g.options with indexUsed := insert index g.options.indexUsed } }
          (.exception exception))
  | setUnknown {optionsHandle : Cell} (count : 3 ≤ argCount params)
      (arg : params[1]? = some optionsHandle)
      (dead : g.options.object optionsHandle = none) :
      Returns host params g .mqttSetOptions
        (rejection { g with options := (g.options.getOptions optionsHandle).2 }
          (.invalidOptionsHandle optionsHandle))
  | set {optionsHandle nameArg value : Cell} {name : OptionName} {option : ConnectOption P}
      (arg : params[1]? = some optionsHandle) (nameArg_eq : params[2]? = some nameArg)
      (valueArg : params[3]? = some value) (named : optionName nameArg = some name)
      (found : g.options.object optionsHandle = some option) :
      Returns host params g .mqttSetOptions
        { value := 1
          globals := { g with
            options := g.options.setOption optionsHandle (option.set host value name) } }

/-! ## Shared exits -/

theorem Native.optionsLookup_eq_none {native : Native} (plain : native.usesOptions = false) :
    native.optionsLookup params g = none := by
  cases native <;> first | rfl | cases plain

theorem Returns.of_reject {native : Native} {error : NativeError}
    (known : ∀ handle, error ≠ .invalidOptionsHandle handle) (plain : native.usesOptions = false)
    (returned : reject g error = .ok r) : Returns host params g native r := by
  cases returned
  refine .rejected known (fun same => ?_) (fun same => ?_) fun looked => ?_
  · rw [same] at plain
    cases plain
  · rw [same] at plain
    cases plain
  · rw [native.optionsLookup_eq_none plain] at looked
    cases looked

/-- Inversion of the client lookup: the rejection, or the body on a live client. -/
theorem Returns.of_withClient {native : Native} {body : Cell → AmxxMqttClient → NativeOutcome P}
    (returned : withClient params g body = .ok r)
    (dead : ∀ {handle}, params[1]? = some handle → g.clients.getClient handle = none →
      reject g (.invalidClientHandle handle) = .ok r → Returns host params g native r)
    (inner : ∀ {handle client}, params[1]? = some handle →
      g.clients.getClient handle = some client → body handle client = .ok r →
      Returns host params g native r) : Returns host params g native r := by
  obtain ⟨handle, arg, lookedUp⟩ := readArg_eq_ok.mp returned
  cases live : g.clients.getClient handle with
  | none =>
      simp only [live] at lookedUp
      exact dead arg live lookedUp
  | some client =>
      simp only [live] at lookedUp
      exact inner arg live lookedUp

/-- The same for a native that does nothing else on a dead handle. -/
theorem Returns.of_liveClient {native : Native} {body : Cell → AmxxMqttClient → NativeOutcome P}
    (plain : native.usesOptions = false) (returned : withClient params g body = .ok r)
    (inner : ∀ {handle client}, params[1]? = some handle →
      g.clients.getClient handle = some client → body handle client = .ok r →
      Returns host params g native r) : Returns host params g native r :=
  .of_withClient returned (fun _ _ => .of_reject (by simp) plain) inner

theorem Returns.of_submit {native : Native} {client : AmxxMqttClient} {request : PahoRequest P}
    (kind : native.requests = true) (returned : submit g client request host.request = .ok r) :
    Returns host params g native r := by
  unfold submit at returned
  split at returned
  · cases returned
    exact .requested kind ‹_›
  · cases returned
    exact .requestThrew kind ‹_›
  · cases returned

/-! ## The natives -/

theorem mqttCreate_returns (returned : mqttCreate host params g = .ok r) :
    Returns host params g .mqttCreate r := by
  unfold mqttCreate at returned
  split at returned
  · exact .of_reject (by simp) rfl returned
  · obtain ⟨broker, _, returned⟩ := readArg_eq_ok.mp returned
    obtain ⟨clientId, _, returned⟩ := readArg_eq_ok.mp returned
    simp only at returned
    generalize host.construct (host.string broker) (host.string clientId) = construct at returned
    cases made : g.clients.make construct with
    | mk result clients =>
        rw [made] at returned
        cases result with
        | ok handle =>
            obtain ⟨object, rfl⟩ := MqttClientMgr.make_ok made
            cases returned
            exact .created made
        | error thrown =>
            have same := MqttClientMgr.make_error made
            subst same
            cases thrown with
            | mqtt exception => exact .of_reject (by simp) rfl returned
            | other => cases returned

theorem mqttDestroy_returns (returned : mqttDestroy host params g = .ok r) :
    Returns host params g .mqttDestroy r := by
  unfold mqttDestroy at returned
  split at returned
  · exact .of_reject (by simp) rfl returned
  · obtain ⟨handle, arg, returned⟩ := readArg_eq_ok.mp returned
    cases returned
    exact .destroyed arg

theorem mqttConnect_returns (returned : mqttConnect host params g = .ok r) :
    Returns host params g .mqttConnect r := by
  unfold mqttConnect at returned
  split at returned
  · rename_i few
    cases returned
    exact .rejected (by simp) (by simp) (by simp) fun looked => by
      simp only [Native.optionsLookup, if_neg (show ¬ 2 ≤ argCount params by omega),
        reduceCtorEq] at looked
  · obtain ⟨optionsHandle, optionsArg, returned⟩ := readArg_eq_ok.mp returned
    refine .of_withClient returned (fun {handle} arg dead returned => ?_)
      fun {handle client} arg live returned => ?_
    · cases returned
      exact .rejected (by simp) (by simp) (by simp) fun looked => by
        simp only [Native.optionsLookup, arg, dead, Option.bind_some, Option.bind_none, ite_self,
          reduceCtorEq] at looked
    have looked := ConnectOptionMgr.getOptions_fst optionsHandle g.options
    cases found : g.options.object optionsHandle with
    | none =>
        rw [found] at looked
        simp only [looked] at returned
        cases returned
        exact .connectUnknown arg optionsArg live found
    | some option =>
        rw [found] at looked
        have same := ConnectOptionMgr.getOptions_snd_of_mem (ConnectOptionMgr.mem_of_object found)
        simp only [looked, same, submit] at returned
        split at returned
        · cases returned
          exact .connected arg optionsArg live found ‹_›
        · cases returned
          exact .connectThrew arg optionsArg live found ‹_›
        · cases returned

theorem mqttDisconnect_returns (returned : mqttDisconnect host params g = .ok r) :
    Returns host params g .mqttDisconnect r := by
  unfold mqttDisconnect at returned
  split at returned
  · exact .of_reject (by simp) rfl returned
  · refine .of_liveClient rfl returned fun {handle client} arg live returned => ?_
    cases threw : host.request with
    | none =>
        simp only [threw, MqttClient.disconnect, List.map_nil, List.foldl_nil] at returned
        cases returned
        exact .disconnectSent arg live threw
    | some thrown =>
        cases thrown with
        | other =>
            simp only [threw, MqttClient.disconnect] at returned
            cases returned
        | mqtt exception =>
            simp only [threw, MqttClient.disconnect,
              MqttClient.executeAll_notifyDisconnect] at returned
            cases copied : client.base.copyHandler .disconnected with
            | none =>
                simp only [copied, Option.toList_none, List.map_nil, List.foldl_nil] at returned
                cases returned
                exact .disconnectQuiet arg live threw copied
            | some handler =>
                simp only [copied, Option.toList_some, List.map_cons, List.map_nil,
                  List.foldl_cons, List.foldl_nil] at returned
                cases returned
                exact .disconnectThrew arg live threw copied

theorem mqttIsConnect_returns (returned : mqttIsConnect host params g = .ok r) :
    Returns host params g .mqttIsConnect r := by
  unfold mqttIsConnect at returned
  split at returned
  · exact .of_reject (by simp) rfl returned
  · refine .of_liveClient rfl returned fun {handle client} arg live returned => ?_
    cases returned
    exact .isConnected arg live

theorem mqttSubscribe_returns (returned : mqttSubscribe host params g = .ok r) :
    Returns host params g .mqttSubscribe r := by
  unfold mqttSubscribe at returned
  split at returned
  · exact .of_reject (by simp) rfl returned
  · refine .of_liveClient rfl returned fun {handle client} _ _ returned => ?_
    obtain ⟨topic, _, returned⟩ := readArg_eq_ok.mp returned
    simp only at returned
    split at returned
    · exact .of_reject (by simp) rfl returned
    · obtain ⟨qos, returned⟩ := readOptionalArg_eq_ok returned
      split at returned
      · exact .of_reject (by simp) rfl returned
      · exact .of_submit rfl returned

theorem mqttUnsubscribe_returns (returned : mqttUnsubscribe host params g = .ok r) :
    Returns host params g .mqttUnsubscribe r := by
  unfold mqttUnsubscribe at returned
  split at returned
  · exact .of_reject (by simp) rfl returned
  · refine .of_liveClient rfl returned fun {handle client} _ _ returned => ?_
    obtain ⟨topic, _, returned⟩ := readArg_eq_ok.mp returned
    simp only at returned
    split at returned
    · exact .of_reject (by simp) rfl returned
    · exact .of_submit rfl returned

theorem mqttPublish_returns (returned : mqttPublish host params g = .ok r) :
    Returns host params g .mqttPublish r := by
  unfold mqttPublish at returned
  split at returned
  · exact .of_reject (by simp) rfl returned
  · refine .of_liveClient rfl returned fun {handle client} _ _ returned => ?_
    obtain ⟨topic, _, returned⟩ := readArg_eq_ok.mp returned
    simp only at returned
    split at returned
    · exact .of_reject (by simp) rfl returned
    · obtain ⟨data, _, returned⟩ := readArg_eq_ok.mp returned
      obtain ⟨retained, returned⟩ := readOptionalArg_eq_ok returned
      obtain ⟨qos, returned⟩ := readOptionalArg_eq_ok returned
      split at returned
      · exact .of_reject (by simp) rfl returned
      · exact .of_submit rfl returned

theorem setCallback_returns {native : Native} {function : String} {type : CallbackType}
    (kind : native.callbackType = some type)
    (returned : setCallback function type type.signature host params g = .ok r) :
    Returns host params g native r := by
  have plain : native.usesOptions = false := by
    cases native <;> first | rfl | cases kind
  unfold setCallback at returned
  split at returned
  · exact .of_reject (by simp) plain returned
  · refine .of_liveClient plain returned fun {handle client} arg live returned => ?_
    obtain ⟨name, nameArg, returned⟩ := readArg_eq_ok.mp returned
    simp only at returned
    split at returned
    · exact .of_reject (by simp) plain returned
    · rename_i valid
      cases returned
      exact .stored kind arg nameArg live rfl valid

theorem mqttCreateConnectOptions_returns
    (returned : mqttCreateConnectOptions host params g = .ok r) :
    Returns host params g .mqttCreateConnectOptions r := by
  unfold mqttCreateConnectOptions at returned
  have cases := g.options.make_cases host.optionsFailure
  generalize g.options.make host.optionsFailure = result at cases returned
  cases cases with
  | full none =>
      cases returned
      exact .rejected (by simp) (by simp) (fun _ => none) fun looked => by cases looked
  | @failed index stage thrown free failed =>
      cases thrown with
      | mqtt exception =>
          cases returned
          exact .optionsFailed free failed
      | other => cases returned
  | made free built =>
      cases returned
      exact .optionsMade free built

theorem mqttSetOptions_returns (returned : mqttSetOptions host params g = .ok r) :
    Returns host params g .mqttSetOptions r := by
  unfold mqttSetOptions at returned
  split at returned
  · cases returned
    exact .rejected (by simp) (by simp) (by simp) fun looked => by
      simp only [Native.optionsLookup, if_neg (show ¬ 3 ≤ argCount params by omega),
        reduceCtorEq] at looked
  · rename_i count
    obtain ⟨optionsHandle, arg, returned⟩ := readArg_eq_ok.mp returned
    have looked := ConnectOptionMgr.getOptions_fst optionsHandle g.options
    cases found : g.options.object optionsHandle with
    | none =>
        rw [found] at looked
        simp only [looked] at returned
        cases returned
        exact .setUnknown (by omega) arg found
    | some option =>
        rw [found] at looked
        have same := ConnectOptionMgr.getOptions_snd_of_mem (ConnectOptionMgr.mem_of_object found)
        simp only [looked, same] at returned
        obtain ⟨nameArg, nameArg_eq, returned⟩ := readArg_eq_ok.mp returned
        cases named : optionName nameArg with
        | none =>
            simp only [named] at returned
            cases returned
            exact .rejected (by simp) (by simp) (by simp) fun looked => by
              simp only [Native.optionsLookup, if_pos (show 3 ≤ argCount params by omega),
                arg, Option.some.injEq] at looked
              exact looked ▸ ConnectOptionMgr.mem_of_object found
        | some name =>
            simp only [named] at returned
            obtain ⟨value, valueArg, returned⟩ := readArg_eq_ok.mp returned
            cases returned
            exact .set arg nameArg_eq valueArg named found

/-- **What a native can do.** -/
theorem Native.returns {native : Native} (returned : native.invoke host params g = .ok r) :
    Returns host params g native r := by
  cases native with
  | mqttCreate => exact mqttCreate_returns returned
  | mqttDestroy => exact mqttDestroy_returns returned
  | mqttConnect => exact mqttConnect_returns returned
  | mqttDisconnect => exact mqttDisconnect_returns returned
  | mqttIsConnect => exact mqttIsConnect_returns returned
  | mqttSubscribe => exact mqttSubscribe_returns returned
  | mqttUnsubscribe => exact mqttUnsubscribe_returns returned
  | mqttPublish => exact mqttPublish_returns returned
  | mqttSetConnectedCallback => exact setCallback_returns rfl returned
  | mqttSetMessageCallback => exact setCallback_returns rfl returned
  | mqttSetConnectionLostCallback => exact setCallback_returns rfl returned
  | mqttSetDisconnectedCallback => exact setCallback_returns rfl returned
  | mqttCreateConnectOptions => exact mqttCreateConnectOptions_returns returned
  | mqttSetOptions => exact mqttSetOptions_returns returned

/-- No native touches the frame hook. -/
theorem Returns.frameHook {native : Native} (returns : Returns host params g native r) :
    r.globals.frameHook = g.frameHook := by
  cases returns <;> rfl

end AmxxMqtt
