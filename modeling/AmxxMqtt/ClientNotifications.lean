import AmxxMqtt.ClientHistory

/-!
# What a client reports

A client the manager has built, driven one step at a time: calls of its interface, each with what
Paho threw, and Paho's callbacks.  Its handlers turn each notification into one call of the
dispatcher.  `Accounted` relates the flag, the dispatcher calls and the pending requests to the
steps taken, and every step keeps it.

Of Paho it is assumed that a request it accepted completes at most once.
-/

namespace AmxxMqtt

variable {P : PahoOptions}

/-! ## The client's steps -/

inductive ClientStep where
  | connect (threw : Option PahoException)
  /-- Paho accepts the request with this token, or throws -/
  | disconnect (token : Token) (threw : Option PahoException)
  | subscribe (threw : Option PahoException)
  | unsubscribe (threw : Option PahoException)
  | publish (threw : Option PahoException)
  | paho (callback : PahoCallback)
  deriving DecidableEq

/-- A client, the requests it waits for and the dispatcher calls it has made, oldest first. -/
structure ClientState where
  client : AmxxMqttClient
  pending : List Token
  calls : List DispatcherCall

namespace ClientState

/-- A whole callback. -/
def receive (callback : PahoCallback) (s : ClientState) : ClientState :=
  let (base, invoked) := s.client.base.receive callback
  { s with
    client := { s.client with base }
    calls := s.calls ++ invoked.map fun handler => handler.invoke callback.notification }

def step (s : ClientState) : ClientStep → Option ClientState
  -- passed on to Paho, whatever it throws
  | .connect _ | .subscribe _ | .unsubscribe _ | .publish _ => some s
  | .disconnect token threw =>
      match s.client.base.disconnect (threw.map .mqtt) with
      | .error _ => none
      | .ok (base, invoked) =>
          let calls := s.calls ++ invoked.map fun handler =>
            handler.invoke { reasonCode := normalDisconnection }
          match threw with
          | some _ => some { s with client := { s.client with base }, calls }
          | none =>
              if token ∈ s.pending then none
              else some ⟨{ s.client with base }, token :: s.pending, calls⟩
  | .paho callback =>
      match callback.completes with
      | none => some (s.receive callback)
      | some token =>
          if token ∈ s.pending then
            some ({ s with pending := s.pending.erase token }.receive callback)
          else none

end ClientState

/-- In the module a Paho callback is this step of the live client, and its calls are offered to
the queue. -/
theorem World.receive_eq {w : World P} {handle : Int} {client : AmxxMqttClient}
    (live : w.globals.clients.getClient handle = some client) (producer : Producer)
    (object : ObjectId) (callback : PahoCallback) (pending : List Token) :
    w.receive producer handle object callback =
      let after := ClientState.receive callback ⟨client, pending, []⟩
      World.offerAll producer (some object) after.calls { w with globals := { w.globals with
        clients := w.globals.clients.setClient handle after.client } } := by
  simp only [World.receive, World.invoked, World.received, live, Option.getD_some,
    ClientState.receive, List.nil_append]

/-! ## What the steps should report -/

namespace ClientStep

/-- The dispatcher calls a step is to make. -/
def expected (handle : Int) : ClientStep → List DispatcherCall
  | .paho (.connected _) => [.connectedCallbackDispatcher handle]
  | .paho (.message topic payload) => [.messageCallbackDispatcher handle payload topic]
  | .paho (.connectionLost cause) => [.connectionLostCallbackDispatcher handle cause]
  | .paho (.disconnected reasonCode) => [.disconnectedCallbackDispatcher handle reasonCode]
  | .paho (.onSuccess _) | .paho (.onFailure _) | .disconnect _ (some _) =>
      [.disconnectedCallbackDispatcher handle normalDisconnection]
  | _ => []

/-- The connection is lost, closed by the broker, or closed on request. -/
def clears : ClientStep → Bool
  | .paho (.connectionLost _) | .paho (.disconnected _) | .paho (.onSuccess _) => true
  | _ => false

/-- Paho accepts a disconnect request with this token. -/
def accepts (token : Token) (step : ClientStep) : Bool :=
  step = .disconnect token none

/-- A disconnect request with this token completes. -/
def completes (token : Token) (step : ClientStep) : Bool :=
  step = .paho (.onSuccess token) ∨ step = .paho (.onFailure token)

/-- The step calls `disconnect`. -/
def requests : ClientStep → Bool
  | .disconnect _ _ => true
  | _ => false

/-- The step answers a `disconnect`: Paho threw in it, or completes it. -/
def answers : ClientStep → Bool
  | .disconnect _ (some _) | .paho (.onSuccess _) | .paho (.onFailure _) => true
  | _ => false

theorem completes_paho {callback : PahoCallback} {token : Token} :
    (paho callback).completes token = true ↔ callback.completes = some token := by
  cases callback <;> simp [completes, PahoCallback.completes, eq_comm]

theorem answers_paho (callback : PahoCallback) :
    (paho callback).answers = callback.completes.isSome := by
  cases callback <;> rfl

/-- The value a step leaves in the connection flag, if it sets it. -/
def stored : ClientStep → Option Bool
  | .paho callback => callback.stored
  | _ => none

/-- The last value stored, newest step first, is `true` exactly when a connected callback came
after everything that clears the flag. -/
theorem lastStored_iff {log : List ClientStep} :
    (log.findSome? stored).getD false = true ↔
      ∃ cause newer older, log = newer ++ .paho (.connected cause) :: older ∧
        ∀ step ∈ newer, step.clears = false := by
  induction log with
  | nil => simp
  | cons step log ih =>
      have deeper := fun cause => @Log.exists_below_cons_iff _ log step
        (fun step : ClientStep => step.clears = false) (fun _ => True) (.paho (.connected cause))
      simp only [true_and, and_true] at deeper
      simp only [deeper, exists_or, exists_and_left, ← ih]
      cases step with
      | paho callback =>
          cases callback <;> simp [List.findSome?_cons, stored, PahoCallback.stored, clears]
      | _ => simp [List.findSome?_cons, stored, clears]

/-- The same, oldest step first. -/
theorem lastStored_reverse_iff {steps : List ClientStep} :
    (steps.reverse.findSome? stored).getD false = true ↔
      ∃ before cause after, steps = before ++ .paho (.connected cause) :: after ∧
        ∀ step ∈ after, step.clears = false := by
  rw [lastStored_iff]
  constructor
  · intro found
    rcases found with ⟨cause, newer, older, split, silent⟩
    refine ⟨older.reverse, cause, newer.reverse, ?_, fun step member => ?_⟩
    · rw [List.reverse_eq_iff.mp split]
      simp
    · exact silent step (List.mem_reverse.mp member)
  · intro found
    rcases found with ⟨before, cause, after, rfl, silent⟩
    refine ⟨cause, after.reverse, before.reverse, by simp, fun step member => ?_⟩
    exact silent step (List.mem_reverse.mp member)

end ClientStep

/-! ## The account -/

/-- After these steps, oldest first, the client is in this state. -/
structure Accounted (handle : Int) (steps : List ClientStep) (s : ClientState) : Prop where
  bound : s.client.BoundTo handle
  flag : s.client.base.isConnected = (steps.reverse.findSome? ClientStep.stored).getD false
  calls : s.calls = steps.flatMap (ClientStep.expected handle)
  distinct : s.pending.Nodup
  tokens : ∀ token, steps.countP (ClientStep.accepts token) =
    steps.countP (ClientStep.completes token) + s.pending.count token
  requests : steps.countP ClientStep.requests =
    steps.countP ClientStep.answers + s.pending.length

namespace Accounted

variable {handle : Int} {steps : List ClientStep} {s t : ClientState}

/-- A step that leaves the client's handlers, with what it stores, reports and does to the pending
requests. -/
theorem snoc (accounted : Accounted handle steps s) {step : ClientStep}
    (bound : t.client.BoundTo handle)
    (flag : t.client.base.isConnected = step.stored.getD s.client.base.isConnected)
    (calls : t.calls = s.calls ++ step.expected handle) (distinct : t.pending.Nodup)
    (tokens : ∀ token, (if step.accepts token then 1 else 0) + s.pending.count token =
      (if step.completes token then 1 else 0) + t.pending.count token)
    (requests : (if step.requests then 1 else 0) + s.pending.length =
      (if step.answers then 1 else 0) + t.pending.length) :
    Accounted handle (steps ++ [step]) t where
  bound := bound
  flag := by
    rw [List.reverse_append, List.reverse_singleton, List.singleton_append, List.findSome?_cons,
      flag, accounted.flag]
    cases step.stored <;> rfl
  calls := by
    rw [calls, accounted.calls, List.flatMap_append, List.flatMap_singleton]
  distinct := distinct
  tokens token := by
    have before := accounted.tokens token
    have here := tokens token
    simp only [List.countP_append, List.countP_singleton]
    omega
  requests := by
    have before := accounted.requests
    simp only [List.countP_append, List.countP_singleton]
    omega

/-- A whole callback of a bound client reports once. -/
theorem receive (accounted : Accounted handle steps s) {callback : PahoCallback}
    {pending : List Token} (distinct : pending.Nodup)
    (tokens : ∀ token, s.pending.count token =
      (if (ClientStep.paho callback).completes token then 1 else 0) + pending.count token)
    (requests : s.pending.length =
      (if (ClientStep.paho callback).answers then 1 else 0) + pending.length) :
    Accounted handle (steps ++ [.paho callback])
      ({ s with pending }.receive callback) := by
  obtain ⟨invoked, bound⟩ := accounted.bound.receive callback
  refine accounted.snoc bound ?_ ?_ distinct (fun token => ?_) ?_
  · show (s.client.base.receive callback).1.isConnected = _
    rw [MqttClient.receive_eq]
    rfl
  · show s.calls ++ (s.client.base.receive callback).2.map _ = _
    rw [invoked]
    cases callback <;> rfl
  · show 0 + s.pending.count token = _ + pending.count token
    rw [Nat.zero_add]
    exact tokens token
  · show 0 + s.pending.length = _ + pending.length
    rw [Nat.zero_add]
    exact requests

theorem step {action : ClientStep} (accounted : Accounted handle steps s)
    (stepped : s.step action = some t) : Accounted handle (steps ++ [action]) t := by
  cases action with
  | connect | subscribe | unsubscribe | publish =>
      cases stepped
      refine accounted.snoc accounted.bound rfl ?_ accounted.distinct (fun token => ?_) ?_
      · simp [ClientStep.expected]
      · simp [ClientStep.accepts, ClientStep.completes]
      · simp [ClientStep.requests, ClientStep.answers]
  | disconnect token threw =>
      have copied : s.client.base.copyHandler .disconnected = some ⟨.disconnected, handle⟩ := by
        rw [MqttClient.copyHandler, accounted.bound.running, accounted.bound.handlers]
        rfl
      cases threw with
      | some exception =>
          simp only [ClientState.step, Option.map_some, MqttClient.disconnect,
            MqttClient.executeAll_notifyDisconnect, copied, Option.some.injEq] at stepped
          subst stepped
          refine accounted.snoc accounted.bound rfl rfl accounted.distinct (fun other => ?_) ?_
          · simp [ClientStep.accepts, ClientStep.completes]
          · simp [ClientStep.requests, ClientStep.answers]
      | none =>
          simp only [ClientState.step, Option.map_none, MqttClient.disconnect, List.map_nil,
            List.append_nil] at stepped
          split at stepped
          · cases stepped
          · rename_i fresh
            cases stepped
            refine accounted.snoc accounted.bound rfl (List.append_nil _).symm
              (List.nodup_cons.mpr ⟨fresh, accounted.distinct⟩) (fun other => ?_) ?_
            · simp only [ClientStep.accepts, ClientStep.completes, List.count_cons]
              grind
            · simp [ClientStep.requests, ClientStep.answers, Nat.add_comm]
  | paho callback =>
      simp only [ClientState.step] at stepped
      split at stepped
      · rename_i incomplete
        cases stepped
        refine accounted.receive accounted.distinct (fun token => ?_) ?_
        · rw [if_neg (by simp [ClientStep.completes_paho, incomplete]), Nat.zero_add]
        · rw [ClientStep.answers_paho, incomplete]
          exact (Nat.zero_add _).symm
      · rename_i token completes
        split at stepped
        · rename_i waiting
          cases stepped
          refine accounted.receive (accounted.distinct.erase token) (fun other => ?_) ?_
          · by_cases same : other = token
            · have positive := List.count_pos_iff.mpr waiting
              rw [if_pos (ClientStep.completes_paho.mpr (same ▸ completes)), same,
                List.count_erase_self]
              omega
            · have unanswered : (ClientStep.paho callback).completes other ≠ true := by
                rw [ne_eq, ClientStep.completes_paho, completes, Option.some.injEq]
                exact Ne.symm same
              rw [if_neg unanswered, Nat.zero_add, List.count_erase_of_ne same]
          · have length := List.length_erase_of_mem waiting
            have positive := List.length_pos_of_mem waiting
            rw [ClientStep.answers_paho, completes, Option.isSome_some, if_pos rfl]
            omega
        · cases stepped

end Accounted

/-- **A client accounts for everything.**  For a client the manager made in any reachable state,
after any steps: it reports itself connected exactly when a connected callback came after every
step that lost or ended the connection; it has made exactly the dispatcher calls expected of its
steps, in order; every `disconnect` has been answered once, when Paho threw in it or when it
completed, or it is still pending; and what is pending, token by token, is what Paho accepted and
has not completed. -/
theorem client_accounted {mgrCalls : List MgrCall} {m : MgrRun} {object : ObjectId} {handle : Int}
    {mgr : MqttClientMgr} {client : AmxxMqttClient} {steps : List ClientStep} {s : ClientState}
    (ran : Transition.run MgrRun.step .initial mgrCalls = some m)
    (made : m.mgr.make (.ok object) = (.ok handle, mgr))
    (found : mgr.getClient handle = some client)
    (lived : Transition.run ClientState.step ⟨client, [], []⟩ steps = some s) :
    (s.client.base.isConnected = true ↔
      ∃ before cause after, steps = before ++ .paho (.connected cause) :: after ∧
        ∀ step ∈ after, step.clears = false) ∧
    s.calls = steps.flatMap (ClientStep.expected handle) ∧
    steps.countP ClientStep.requests = steps.countP ClientStep.answers + s.pending.length ∧
    s.pending.Nodup ∧
    ∀ token, steps.countP (ClientStep.accepts token) =
      steps.countP (ClientStep.completes token) + s.pending.count token := by
  have tracks : Tracks m.mgr m.log := MgrRun.run_tracked ran Tracks.initial
  obtain ⟨_, table, _, _⟩ := tracks.make made
  rw [MqttClientMgr.getClient, table, AList.lookup_insert] at found
  cases found
  have start : Accounted handle [] ⟨MqttClientMgr.bound object handle, [], []⟩ :=
    ⟨MqttClientMgr.bound_boundTo object handle, rfl, rfl, List.nodup_nil, fun _ => rfl, rfl⟩
  have accounted : Accounted handle steps s :=
    Transition.run_induction start (fun accounted stepped => accounted.step stepped) lived
  refine ⟨?_, accounted.calls, accounted.requests, accounted.distinct, accounted.tokens⟩
  rw [accounted.flag]
  exact ClientStep.lastStored_reverse_iff

/-- A client connects, asks to disconnect twice, is told that the first request succeeded and
that the second one failed, and connects again. -/
theorem client_accounted_reconnected :
    ∃ (mgr : MqttClientMgr) (client : AmxxMqttClient) (s : ClientState),
      MqttClientMgr.initial.make (.ok 7) = (.ok 1, mgr) ∧ mgr.getClient 1 = some client ∧
      Transition.run ClientState.step ⟨client, [], []⟩
        [.connect none, .paho (.connected []), .disconnect 0 none, .disconnect 1 none,
          .paho (.onSuccess 0), .paho (.onFailure 1), .paho (.connected [])] = some s ∧
      s.client.base.isConnected = true ∧
      s.calls = [.connectedCallbackDispatcher 1, .disconnectedCallbackDispatcher 1 0,
        .disconnectedCallbackDispatcher 1 0, .connectedCallbackDispatcher 1] := by
  have lives : ((MqttClientMgr.initial.make (.ok 7)).2.getClient 1).map (fun client =>
      ((MqttClientMgr.initial.make (.ok 7)).1.toOption, (Transition.run ClientState.step
        ⟨client, [], []⟩ [.connect none, .paho (.connected []), .disconnect 0 none,
          .disconnect 1 none, .paho (.onSuccess 0), .paho (.onFailure 1),
          .paho (.connected [])]).isSome)) = some (some 1, true) := by
    decide +kernel
  rcases made : MqttClientMgr.initial.make (.ok 7) with ⟨outcome, mgr⟩
  rw [made] at lives
  obtain ⟨client, found, state⟩ := Option.map_eq_some_iff.mp lives
  obtain ⟨issued, ran⟩ := Prod.mk.inj state
  obtain ⟨s, ran⟩ := Option.isSome_iff_exists.mp ran
  cases outcome with
  | error thrown => cases issued
  | ok handle =>
      cases issued
      have built : Transition.run MgrRun.step .initial [] = some .initial := rfl
      obtain ⟨flag, calls, _⟩ := client_accounted built made found ran
      have before : ∃ before cause after, [ClientStep.connect none, .paho (.connected []),
          .disconnect 0 none, .disconnect 1 none, .paho (.onSuccess 0), .paho (.onFailure 1),
          .paho (.connected [])] = before ++ .paho (.connected cause) :: after ∧
            ∀ step ∈ after, step.clears = false :=
        ⟨[.connect none, .paho (.connected []), .disconnect 0 none, .disconnect 1 none,
          .paho (.onSuccess 0), .paho (.onFailure 1)], [], [], rfl, by simp⟩
      exact ⟨mgr, client, s, rfl, found, ran, flag.mpr before, calls⟩

end AmxxMqtt
