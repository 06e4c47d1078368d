import Mathlib.Data.List.TakeWhile
import AmxxMqtt.Natives

/-!
# Argument frames

A native sees its arguments through a frame that says how many there are.  What
`mqtt_subscribe` and `mqtt_publish` do with a frame is said by its cells alone, a missing
optional cell counting as 0, and no native reads a cell the frame does not have.
-/

namespace AmxxMqtt

variable {P : PahoOptions} {host : Host} {args : List Cell} {g : Globals P}

/-! ## Reading a frame -/

/-- A cell of the frame, or 0 when the frame is shorter. -/
def cellOrZero (args : List Cell) (index : Nat) : Cell :=
  args[index]?.getD 0

/-- Zeros at the end of a frame change no cell. -/
theorem cellOrZero_padded (args : List Cell) (zeros index : Nat) :
    cellOrZero (args ++ List.replicate zeros 0) index = cellOrZero args index := by
  unfold cellOrZero
  rw [List.getElem?_append]
  split
  · rfl
  · rename_i past
    rw [List.getElem?_eq_none (Nat.le_of_not_lt past), List.getElem?_replicate]
    split <;> rfl

theorem readArg_frame {index : Nat} {body : Cell → NativeOutcome P}
    (inside : index < args.length) :
    readArg (frame args) (index + 1) body = body (cellOrZero args index) := by
  simp only [readArg, frame_getElem?_succ, cellOrZero, List.getElem?_eq_getElem inside,
    Option.getD_some]

/-- An optional argument is its cell, or 0. -/
theorem readOptionalArg_frame {index : Nat} {body : Cell → NativeOutcome P} :
    readOptionalArg (frame args) (index + 1) 0 body = body (cellOrZero args index) := by
  unfold readOptionalArg
  rw [argCount_frame]
  split
  · exact readArg_frame ‹_›
  · rename_i short
    rw [cellOrZero, List.getElem?_eq_none (by omega), Option.getD_none]

theorem withClient_frame {body : Cell → AmxxMqttClient → NativeOutcome P}
    (nonempty : 0 < args.length) :
    withClient (frame args) g body =
      match g.clients.getClient (cellOrZero args 0) with
      | none => reject g (.invalidClientHandle (cellOrZero args 0))
      | some client => body (cellOrZero args 0) client := by
  unfold withClient
  exact readArg_frame nonempty

/-! ## Requests -/

/-- The requests a call made of Paho, and the clients they were made of. -/
def NativeReturn.requests (r : NativeReturn P) : List (ObjectId × PahoRequest P) :=
  r.effects.filterMap fun
    | .request object request => some (object, request)
    | _ => none

/-- The checks `mqtt_subscribe` and `mqtt_publish` share, in order, and then the request. -/
def checkedRequest (host : Host) (args : List Cell) (g : Globals P) (qos : Cell)
    (request : PahoRequest P) : NativeOutcome P :=
  match g.clients.getClient (cellOrZero args 0) with
  | none => reject g (.invalidClientHandle (cellOrZero args 0))
  | some client =>
      if host.string (cellOrZero args 1) = [] then reject g .emptyTopic else
      if qos < 0 ∨ qos > 2 then reject g (.invalidQos qos) else
      submit g client request host.request

theorem cString_string (host : Host) (cell : Cell) :
    cString (host.string cell) = host.string cell := by
  simp only [Host.string, cString, List.takeWhile_idem]

theorem mqttSubscribe_eq (enough : 2 ≤ args.length) :
    mqttSubscribe host (frame args) g = checkedRequest host args g (cellOrZero args 2)
      (.subscribe (host.string (cellOrZero args 1)) (cellOrZero args 2)) := by
  rw [mqttSubscribe, argCount_frame, if_neg (by omega), withClient_frame (by omega),
    checkedRequest]
  split
  · rfl
  · rw [readArg_frame (by omega)]
    simp only [readOptionalArg_frame, cString_string]

theorem mqttPublish_eq (enough : 3 ≤ args.length) :
    mqttPublish host (frame args) g = checkedRequest host args g (cellOrZero args 4)
      (.publish (host.string (cellOrZero args 1)) (host.string (cellOrZero args 2))
        (cellOrZero args 4) (cellOrZero args 3 ≠ 0)) := by
  rw [mqttPublish, argCount_frame, if_neg (by omega), withClient_frame (by omega),
    checkedRequest]
  split
  · rfl
  · rw [readArg_frame (by omega)]
    simp only
    rw [readArg_frame (by omega)]
    simp only [readOptionalArg_frame]

/-- What the frame must hold for its request to be made, of this client. -/
structure ValidFrame (host : Host) (args : List Cell) (g : Globals P) (count : Nat) (qos : Cell)
    (client : AmxxMqttClient) : Prop where
  enough : count ≤ args.length
  live : g.clients.getClient (cellOrZero args 0) = some client
  named : host.string (cellOrZero args 1) ≠ []
  lower : 0 ≤ qos
  upper : qos ≤ 2

/-- The call makes the one request, of the client of a valid frame, and returns whether Paho took
it; it does not return only when Paho throws something other than an `mqtt::exception`. -/
structure NativeOutcome.Submits (outcome : NativeOutcome P) (host : Host)
    (valid : AmxxMqttClient → Prop) (request : PahoRequest P) : Prop where
  made : ∀ r, outcome = .ok r → (r.requests ≠ [] ↔ ∃ client, valid client)
  carries : ∀ r client, outcome = .ok r → valid client →
    r.requests = [(client.object, request)]
  value : ∀ r, outcome = .ok r →
    r.value = if r.requests ≠ [] ∧ host.request = none then 1 else 0
  faults : ∀ fault, outcome = .error fault →
    fault = .uncaughtException ∧ (∃ client, valid client) ∧ host.request = some .other

/-- A valid frame passes the checks. -/
theorem checkedRequest_of_valid {count : Nat} {qos : Cell} {client : AmxxMqttClient}
    {request : PahoRequest P} (valid : ValidFrame host args g count qos client) :
    checkedRequest host args g qos request = submit g client request host.request := by
  have range : ¬ (qos < 0 ∨ qos > 2) := by
    intro out
    rcases out with low | high
    · exact Int.not_le.mpr low valid.lower
    · exact Int.not_le.mpr high valid.upper
  simp only [checkedRequest, valid.live, if_neg valid.named, if_neg range]

/-- Any other frame of enough cells is rejected by one of them. -/
theorem checkedRequest_of_invalid {count : Nat} {qos : Cell} {request : PahoRequest P}
    (enough : count ≤ args.length) (invalid : ∀ client, ¬ ValidFrame host args g count qos client) :
    ∃ error, checkedRequest host args g qos request = reject g error := by
  unfold checkedRequest
  split
  · exact ⟨_, rfl⟩
  · rename_i client live
    split
    · exact ⟨_, rfl⟩
    · rename_i named
      split
      · exact ⟨_, rfl⟩
      · rename_i range
        rw [not_or, Int.not_lt, gt_iff_lt, Int.not_lt] at range
        exact absurd ⟨enough, live, named, range.1, range.2⟩ (invalid client)

theorem submits_of_reject {error : NativeError} {valid : AmxxMqttClient → Prop}
    {request : PahoRequest P} (invalid : ∀ client, ¬ valid client) :
    (reject g error).Submits host valid request where
  made r returned := by
    cases returned
    exact iff_of_false (fun some => some rfl) (not_exists.mpr invalid)
  carries r client _ isValid := absurd isValid (invalid client)
  value r returned := by
    cases returned
    rfl
  faults fault faulted := by cases faulted

/-- What the `try` around a request returns. -/
theorem submit_eq_ok {client : AmxxMqttClient} {request : PahoRequest P} {threw : Option Thrown}
    {r : NativeReturn P} (returned : submit g client request threw = .ok r) :
    r.requests = [(client.object, request)] ∧ r.value = if threw = none then 1 else 0 := by
  rcases threw with _ | _ | _
  · cases returned
    exact ⟨rfl, rfl⟩
  · cases returned
    exact ⟨rfl, rfl⟩
  · cases returned

theorem submit_eq_error {client : AmxxMqttClient} {request : PahoRequest P}
    {threw : Option Thrown} {fault : NativeFault}
    (faulted : submit g client request threw = .error fault) :
    fault = .uncaughtException ∧ threw = some .other := by
  rcases threw with _ | _ | _
  · cases faulted
  · cases faulted
  · cases faulted
    exact ⟨rfl, rfl⟩

theorem submits_of_submit {client : AmxxMqttClient} {valid : AmxxMqttClient → Prop}
    {request : PahoRequest P} (isValid : valid client)
    (unique : ∀ other, valid other → other = client) :
    (submit g client request host.request).Submits host valid request where
  made r returned := by
    obtain ⟨requests, _⟩ := submit_eq_ok returned
    exact iff_of_true (by simp [requests]) ⟨client, isValid⟩
  carries r other returned otherValid := by
    obtain ⟨requests, _⟩ := submit_eq_ok returned
    rw [requests, unique other otherValid]
  value r returned := by
    obtain ⟨requests, value⟩ := submit_eq_ok returned
    rw [value]
    simp only [requests, ne_eq, List.cons_ne_self, not_false_eq_true, true_and]
  faults fault faulted := by
    obtain ⟨uncaught, threw⟩ := submit_eq_error faulted
    exact ⟨uncaught, ⟨client, isValid⟩, threw⟩

theorem ValidFrame.unique {count : Nat} {qos : Cell} {client other : AmxxMqttClient}
    (valid : ValidFrame host args g count qos client)
    (otherValid : ValidFrame host args g count qos other) : other = client :=
  Option.some.inj (otherValid.live.symm.trans valid.live)

/-- A native that rejects frames of fewer cells and then checks and makes its request. -/
theorem submits_of_checked {count : Nat} {qos : Cell} {request : PahoRequest P}
    {outcome : NativeOutcome P} {few : NativeError}
    (short : args.length < count → outcome = reject g few)
    (enough : count ≤ args.length → outcome = checkedRequest host args g qos request) :
    outcome.Submits host (ValidFrame host args g count qos) request := by
  by_cases missing : args.length < count
  · rw [short missing]
    refine submits_of_reject fun client valid => ?_
    exact Nat.not_le.mpr missing valid.enough
  · have count_le := Nat.le_of_not_lt missing
    rw [enough count_le]
    by_cases some : ∃ client, ValidFrame host args g count qos client
    · obtain ⟨client, valid⟩ := some
      rw [checkedRequest_of_valid valid]
      exact submits_of_submit valid fun other => valid.unique
    · have invalid := not_exists.mp some
      obtain ⟨error, rejected⟩ := checkedRequest_of_invalid count_le invalid
      rw [rejected]
      exact submits_of_reject invalid

/-! ## No native reads past its frame -/

/-- The outcome is not a read past the frame. -/
def NativeOutcome.InRange (outcome : NativeOutcome P) : Prop :=
  ∀ index, outcome ≠ .error (.argumentOutOfRange index)

theorem inRange_ok (r : NativeReturn P) : NativeOutcome.InRange (.ok r) := by
  intro index fault
  cases fault

theorem inRange_uncaught : NativeOutcome.InRange (.error .uncaughtException : NativeOutcome P) := by
  intro index fault
  cases fault

theorem inRange_readArg {index : Nat} {body : Cell → NativeOutcome P}
    (inside : index < args.length) (rest : ∀ cell, (body cell).InRange) :
    (readArg (frame args) (index + 1) body).InRange := by
  rw [readArg_frame inside]
  exact rest _

theorem inRange_readOptionalArg {index : Nat} {body : Cell → NativeOutcome P}
    (rest : ∀ cell, (body cell).InRange) :
    (readOptionalArg (frame args) (index + 1) 0 body).InRange := by
  rw [readOptionalArg_frame]
  exact rest _

theorem inRange_withClient {body : Cell → AmxxMqttClient → NativeOutcome P}
    (nonempty : 0 < args.length) (rest : ∀ handle client, (body handle client).InRange) :
    (withClient (frame args) g body).InRange := by
  rw [withClient_frame nonempty]
  split
  · exact inRange_ok _
  · exact rest _ _

theorem inRange_submit (client : AmxxMqttClient) (request : PahoRequest P)
    (threw : Option Thrown) : (submit g client request threw).InRange := by
  rcases threw with _ | _ | _
  exacts [inRange_ok _, inRange_ok _, inRange_uncaught]

theorem inRange_setCallback (function : String) (type : CallbackType)
    (signature : List ForwardParam) :
    (setCallback function type signature host (frame args) g).InRange := by
  unfold setCallback
  rw [argCount_frame]
  split
  · exact inRange_ok _
  · refine inRange_withClient (by omega) fun handle client => ?_
    refine inRange_readArg (by omega) fun name => ?_
    simp only
    split
    · exact inRange_ok _
    · exact inRange_ok _

/-- **No read past the frame.** -/
theorem invoke_inRange (native : Native) :
    (native.invoke host (frame args) g).InRange := by
  cases native with
  | mqttCreate =>
      simp only [Native.invoke, mqttCreate, argCount_frame]
      split
      · exact inRange_ok _
      · refine inRange_readArg (by omega) fun broker => ?_
        refine inRange_readArg (by omega) fun clientId => ?_
        split
        exacts [inRange_ok _, inRange_ok _, inRange_uncaught]
  | mqttDestroy =>
      simp only [Native.invoke, mqttDestroy, argCount_frame]
      split
      · exact inRange_ok _
      · exact inRange_readArg (by omega) fun handle => inRange_ok _
  | mqttConnect =>
      simp only [Native.invoke, mqttConnect, argCount_frame]
      split
      · exact inRange_ok _
      · refine inRange_readArg (by omega) fun optionsHandle => ?_
        refine inRange_withClient (by omega) fun handle client => ?_
        split
        · exact inRange_ok _
        · exact inRange_submit _ _ _
  | mqttDisconnect =>
      simp only [Native.invoke, mqttDisconnect, argCount_frame]
      split
      · exact inRange_ok _
      · refine inRange_withClient (by omega) fun handle client => ?_
        split
        exacts [inRange_ok _, inRange_ok _, inRange_uncaught]
  | mqttIsConnect =>
      simp only [Native.invoke, mqttIsConnect, argCount_frame]
      split
      · exact inRange_ok _
      · exact inRange_withClient (by omega) fun handle client => inRange_ok _
  | mqttSubscribe =>
      simp only [Native.invoke, mqttSubscribe, argCount_frame]
      split
      · exact inRange_ok _
      · refine inRange_withClient (by omega) fun handle client => ?_
        refine inRange_readArg (by omega) fun topic => ?_
        split
        · exact inRange_ok _
        · refine inRange_readOptionalArg fun qos => ?_
          split
          exacts [inRange_ok _, inRange_submit _ _ _]
  | mqttUnsubscribe =>
      simp only [Native.invoke, mqttUnsubscribe, argCount_frame]
      split
      · exact inRange_ok _
      · refine inRange_withClient (by omega) fun handle client => ?_
        refine inRange_readArg (by omega) fun topic => ?_
        split
        exacts [inRange_ok _, inRange_submit _ _ _]
  | mqttPublish =>
      simp only [Native.invoke, mqttPublish, argCount_frame]
      split
      · exact inRange_ok _
      · refine inRange_withClient (by omega) fun handle client => ?_
        refine inRange_readArg (by omega) fun topic => ?_
        split
        · exact inRange_ok _
        · refine inRange_readArg (by omega) fun data => ?_
          refine inRange_readOptionalArg fun retained => ?_
          refine inRange_readOptionalArg fun qos => ?_
          split
          exacts [inRange_ok _, inRange_submit _ _ _]
  | mqttSetConnectedCallback | mqttSetMessageCallback | mqttSetConnectionLostCallback
  | mqttSetDisconnectedCallback =>
      simp only [Native.invoke, mqttSetConnectedCallback, mqttSetMessageCallback,
        mqttSetConnectionLostCallback, mqttSetDisconnectedCallback]
      exact inRange_setCallback _ _ _
  | mqttCreateConnectOptions =>
      simp only [Native.invoke, mqttCreateConnectOptions]
      split
      exacts [inRange_ok _, inRange_ok _, inRange_uncaught]
  | mqttSetOptions =>
      simp only [Native.invoke, mqttSetOptions, argCount_frame]
      split
      · exact inRange_ok _
      · refine inRange_readArg (by omega) fun optionsHandle => ?_
        split
        · exact inRange_ok _
        · refine inRange_readArg (by omega) fun name => ?_
          split
          · exact inRange_ok _
          · exact inRange_readArg (by omega) fun value => inRange_ok _

/-! ## The guarantee -/

/-- **Requests match the frame.**  Whatever the state, `mqtt_subscribe` and `mqtt_publish` make
their one request exactly for a valid frame, with the contents the frame's cells name, and return
1 exactly when Paho took it.  Zeros added to a frame of enough cells change nothing, and no native
reads a cell the frame does not have. -/
theorem requests_match_frame (host : Host) (args : List Cell) (g : Globals P) :
    (mqttSubscribe host (frame args) g).Submits host
      (ValidFrame host args g 2 (cellOrZero args 2))
      (.subscribe (host.string (cellOrZero args 1)) (cellOrZero args 2)) ∧
    (mqttPublish host (frame args) g).Submits host
      (ValidFrame host args g 3 (cellOrZero args 4))
      (.publish (host.string (cellOrZero args 1)) (host.string (cellOrZero args 2))
        (cellOrZero args 4) (cellOrZero args 3 ≠ 0)) ∧
    (∀ zeros, 2 ≤ args.length →
      mqttSubscribe host (frame (args ++ List.replicate zeros 0)) g =
        mqttSubscribe host (frame args) g) ∧
    (∀ zeros, 3 ≤ args.length →
      mqttPublish host (frame (args ++ List.replicate zeros 0)) g =
        mqttPublish host (frame args) g) ∧
    ∀ (native : Native) (index : Nat),
      native.invoke host (frame args) g ≠ .error (.argumentOutOfRange index) := by
  refine ⟨?_, ?_, fun zeros enough => ?_, fun zeros enough => ?_, invoke_inRange⟩
  · have few : args.length < 2 → mqttSubscribe host (frame args) g =
        reject g (.tooFewArguments "mqtt_subscribe") := by
      intro short
      rw [mqttSubscribe, argCount_frame, if_pos short]
    exact submits_of_checked few mqttSubscribe_eq
  · have few : args.length < 3 → mqttPublish host (frame args) g =
        reject g (.tooFewArguments "mqtt_publish") := by
      intro short
      rw [mqttPublish, argCount_frame, if_pos short]
    exact submits_of_checked few mqttPublish_eq
  · have longer : 2 ≤ (args ++ List.replicate zeros 0).length := by
      rw [List.length_append]
      omega
    rw [mqttSubscribe_eq enough, mqttSubscribe_eq longer]
    simp only [checkedRequest, cellOrZero_padded]
  · have longer : 3 ≤ (args ++ List.replicate zeros 0).length := by
      rw [List.length_append]
      omega
    rw [mqttPublish_eq enough, mqttPublish_eq longer]
    simp only [checkedRequest, cellOrZero_padded]

end AmxxMqtt
