import SqrzlEmulator.Sms.Model
import Mathlib.Logic.Function.Basic

/-!
# Delivery reports

`SmsSimulator::transition_delivery` of `sms/simulator.rs`, over the transition of the store, for any
number of calls on one message. A call reads the message, lets the store make the transition under
its lock, sends the callback of the message, and records the attempt; between two of these steps any
other call can do any of its own. A step that fails for a reason of its own ends its call.

**The stored state changes at most once, and only from accepted to a terminal one**
(`delivered_once`): this is what the lock is for. But whether there is something to report is decided
on the message as it was read before, and the store lets a transition to the present state pass. So
one report is sent as long as **no call that has read an accepted message finds it in the state that
it asks for**; two calls that overlap both report the delivery (`two_reports`).
-/

namespace Sqrzl.Sms

open Capture (Value)

/-! ### The store -/

/-- `FilesystemSmsStore::transition_delivery`, on the message that is stored. -/
def transitionDelivery (message : SmsMessage) (state : SmsDeliveryState) (now : Time) :
    Except Error SmsMessage :=
  if state = .accepted then
    .error (.invalidRequest "delivery transition must be delivered or failed")
  else if message.deliveryState = .accepted then
    .ok { message with deliveryState := state, updatedAt := now }
  else if message.deliveryState = state then .ok message
  else .error (.invalidRequest "terminal delivery states are immutable")

/-! ### The simulator -/

/-- How far a call has come. -/
inductive Phase where
  | called
  | read (before : SmsMessage)
  /-- The transition is made, and a callback may be due. -/
  | transitioned (message : SmsMessage)
  /-- A callback is sent, and its attempt is to be recorded. -/
  | sent (message : SmsMessage) (attempt : CallbackAttempt)
  | returned (result : Except Error SmsMessage)

/-- A call of `SmsSimulator::transition_delivery`. -/
structure Call where
  state : SmsDeliveryState
  phase : Phase := .called

/-- The message on the disk, what the store has beside it, and the calls. -/
structure System (ι : Type) where
  message : SmsMessage
  /-- The destination of the sender. -/
  destination : Option TextDestination
  /-- The recorded attempts. -/
  callbacks : Table String CallbackAttempt
  /-- The attempts that were made. -/
  attempts : List CallbackAttempt
  calls : ι → Call

/-- What comes from outside: the answer to a callback, the clock, and the name of the attempt. -/
structure Answer where
  attemptId : String
  attemptedAt : Time
  response : Except String (ℕ × String)
  deriving DecidableEq

/-- The step of a call, or a change of the destination by somebody else. -/
inductive Action (ι : Type) where
  | read (i : ι)
  | transition (i : ι) (now : Time)
  | callback (i : ι) (answer : Answer)
  | record (i : ι)
  | fail (i : ι) (e : Error)
  | putDestination (destination : Option TextDestination)

/-- The headers and the body of a request: `callback_payload`. -/
abbrev Payload : Type := SmsMessage → CallbackKind → String → Table String String × String

/-- `attempt_callback` -/
def attemptCallback (payload : Payload) (message : SmsMessage) (kind : CallbackKind) (url : String)
    (retryOf : Option String) (answer : Answer) : CallbackAttempt :=
  let (headers, body) := payload message kind url
  let (status, responseBody, error, state) := match answer.response with
    | .ok (status, body) =>
      if 200 ≤ status ∧ status < 300 then
        (some status, some body, none, CallbackAttemptState.succeeded)
      else (some status, some body, some ("callback returned HTTP " ++ toString status), .failed)
    | .error e => (none, none, some e, .failed)
  { attemptId := answer.attemptId
    messageId := message.messageId
    kind := kind
    provider := message.provider
    url := url
    requestHeaders := headers.insert "content-length" (toString body.utf8ByteSize)
    requestBody := body
    responseStatus := status
    responseBody := responseBody
    error := error
    state := state
    attemptedAt := answer.attemptedAt
    retryOf := retryOf }

/-- Where a callback goes to: the address of the message itself, or that of its sender. -/
def callbackUrl (message : SmsMessage) (destination : Option TextDestination) : Option String :=
  ((message.metadata["status_callback"]?).bind Value.asStr).or
    (destination.map TextDestination.callbackUrl)

namespace System

variable {ι : Type} [DecidableEq ι]

/-- A call goes on. -/
def goOn (s : System ι) (i : ι) (phase : Phase) : System ι :=
  { s with calls := Function.update s.calls i { s.calls i with phase := phase } }

/-- One step. A step that its call has not come to does not happen. -/
def step (payload : Payload) (s : System ι) : Action ι → Option (System ι)
  | .read i => match (s.calls i).phase with
    | .called => some (s.goOn i
        (if s.message.direction = .outbound then .read s.message
        else .returned (.error (.invalidRequest
          "delivery transitions apply only to outbound messages"))))
    | _ => none
  | .transition i now => match (s.calls i).phase with
    | .read before => match transitionDelivery s.message (s.calls i).state now with
      | .ok message => some ({ s with message := message }.goOn i
          (if before.deliveryState = SmsDeliveryState.accepted then .transitioned message
          else .returned (.ok message)))
      | .error e => some (s.goOn i (.returned (.error e)))
    | _ => none
  | .callback i answer => match (s.calls i).phase with
    | .transitioned message => match callbackUrl message s.destination with
      | some url =>
        let attempt := attemptCallback payload message .delivery url none answer
        some ({ s with attempts := s.attempts ++ [attempt] }.goOn i (.sent message attempt))
      | none => some (s.goOn i (.returned (.ok message)))
    | _ => none
  | .record i => match (s.calls i).phase with
    | .sent message attempt =>
      if (s.callbacks[attempt.attemptId]?).isSome then
        some (s.goOn i (.returned (.error
          (.invalidRequest "callback attempt already exists"))))
      else some ({ s with callbacks := s.callbacks.insert attempt.attemptId attempt }.goOn i
        (.returned (.ok message)))
    | _ => none
  | .fail i e => match (s.calls i).phase with
    | .returned _ => none
    | _ => some (s.goOn i (.returned (.error e)))
  | .putDestination destination => some { s with destination := destination }

/-- The steps of a run, one after the other. -/
def run (payload : Payload) (s : System ι) (actions : List (Action ι)) : Option (System ι) :=
  actions.foldlM (step payload) s

/-- Nothing has happened yet. -/
structure Initial (s : System ι) : Prop where
  called : ∀ i, (s.calls i).phase = .called
  attempts : s.attempts = []

/-- How often the stored state changes in a run. -/
def changes (payload : Payload) (s : System ι) : List (Action ι) → ℕ
  | [] => 0
  | action :: actions => match s.step payload action with
    | some s' => (if s'.message.deliveryState = s.message.deliveryState then 0 else 1) +
        changes payload s' actions
    | none => 0

/-- **A transition that is made for a call which has read an accepted message finds the message in
another state than the call asks for.** -/
def fresh (s : System ι) : Action ι → Bool
  | .transition i _ => match (s.calls i).phase with
    | .read before =>
      !(before.deliveryState = .accepted && s.message.deliveryState = (s.calls i).state)
    | _ => true
  | _ => true

/-- Every step of a run meets the condition. -/
def eachFresh (payload : Payload) (s : System ι) : List (Action ι) → Bool
  | [] => true
  | action :: actions => s.fresh action && match s.step payload action with
    | some s' => eachFresh payload s' actions
    | none => true

/-! ### What a step does -/

/-- A callback may be due for the call. -/
def Pending (s : System ι) (i : ι) : Prop := ∃ message, (s.calls i).phase = .transitioned message

theorem pending_goOn {s : System ι} {i j : ι} {phase : Phase} :
    (s.goOn i phase).Pending j ↔
      (j = i ∧ ∃ message, phase = .transitioned message) ∨ j ≠ i ∧ s.Pending j := by
  unfold Pending goOn
  dsimp only
  by_cases hj : j = i
  · subst hj
    rw [Function.update_self]
    exact ⟨fun h ↦ .inl ⟨rfl, h⟩, fun h ↦ h.elim (·.2) fun h ↦ absurd rfl h.1⟩
  · rw [Function.update_of_ne hj]
    exact ⟨fun h ↦ .inr ⟨hj, h⟩, fun h ↦ h.elim (fun h ↦ absurd h.1 hj) (·.2)⟩

/-- What a step may do to the stored message, to the attempts and to the calls. -/
inductive Did (s s' : System ι) (action : Action ι) : Prop
  /-- No call becomes pending, and nothing is sent or stored. -/
  | quiet (message : s'.message = s.message) (attempts : s'.attempts = s.attempts)
      (pending : ∀ j, s'.Pending j → s.Pending j)
  /-- The store makes a transition, and its call becomes pending if it has read an accepted
  message. -/
  | moved (i : ι) (now : Time) (before : SmsMessage) (haction : action = .transition i now)
      (hphase : (s.calls i).phase = .read before)
      (message : transitionDelivery s.message (s.calls i).state now = .ok s'.message)
      (attempts : s'.attempts = s.attempts)
      (pending : ∀ j, s'.Pending j → s.Pending j ∨ j = i ∧ before.deliveryState = .accepted)
  /-- A pending call sends its callback. -/
  | reported (i : ι) (hpending : s.Pending i) (message : s'.message = s.message)
      (attempts : s'.attempts.length = s.attempts.length + 1)
      (pending : ∀ j, s'.Pending j → j ≠ i ∧ s.Pending j)

/-- A call that goes on and does not become pending. -/
theorem Did.goOn {s : System ι} {i : ι} {phase : Phase} {action : Action ι}
    (h : ∀ message, phase ≠ .transitioned message) : Did s (s.goOn i phase) action := by
  refine .quiet rfl rfl fun j hj ↦ ?_
  rcases pending_goOn.1 hj with ⟨-, message, hmessage⟩ | ⟨-, hpending⟩
  · exact absurd hmessage (h message)
  · exact hpending

/-- **What a step can do.** -/
theorem did_of_step {payload : Payload} {s s' : System ι} {action : Action ι}
    (h : s.step payload action = some s') : Did s s' action := by
  cases action with
  | read i =>
    simp only [step] at h
    split at h
    · obtain rfl := Option.some.inj h
      refine .goOn fun message ↦ ?_
      split_ifs
      · exact Phase.noConfusion
      · exact Phase.noConfusion
    · cases h
  | transition i now =>
    simp only [step] at h
    split at h
    · next before hphase =>
      split at h
      · next message hmessage =>
        obtain rfl := Option.some.inj h
        refine .moved i now before rfl hphase hmessage rfl fun j hj ↦ ?_
        rcases pending_goOn.1 hj with ⟨rfl, message', hpending⟩ | ⟨-, hpending⟩
        · refine .inr ⟨rfl, ?_⟩
          by_contra hbefore
          rw [if_neg hbefore] at hpending
          cases hpending
        · exact .inl hpending
      · next e he =>
        obtain rfl := Option.some.inj h
        exact .goOn fun message ↦ Phase.noConfusion
    · cases h
  | callback i answer =>
    simp only [step] at h
    split at h
    · next message hphase =>
      split at h
      · next url hurl =>
        obtain rfl := Option.some.inj h
        refine .reported i ⟨message, hphase⟩ rfl List.length_append fun j hj ↦ ?_
        rcases pending_goOn.1 hj with ⟨-, message', hpending⟩ | hpending
        · cases hpending
        · exact hpending
      · obtain rfl := Option.some.inj h
        exact .goOn fun message ↦ Phase.noConfusion
    · cases h
  | record i =>
    simp only [step] at h
    split at h
    · split_ifs at h
      · obtain rfl := Option.some.inj h
        exact .goOn fun message ↦ Phase.noConfusion
      · obtain rfl := Option.some.inj h
        refine .quiet rfl rfl fun j hj ↦ ?_
        rcases pending_goOn.1 hj with ⟨-, message', hpending⟩ | ⟨-, hpending⟩
        · cases hpending
        · exact hpending
    · cases h
  | fail i e =>
    simp only [step] at h
    split at h
    · cases h
    · obtain rfl := Option.some.inj h
      exact .goOn fun message ↦ Phase.noConfusion
  | putDestination destination =>
    obtain rfl := Option.some.inj h
    exact .quiet rfl rfl fun j hj ↦ hj

/-- What a transition of the store does: it is the first one, or it changes nothing. -/
theorem transitionDelivery_ok {message message' : SmsMessage} {state : SmsDeliveryState} {now : Time}
    (h : transitionDelivery message state now = .ok message') :
    message.deliveryState = .accepted ∧ message'.deliveryState ≠ .accepted ∨
      message' = message ∧ message.deliveryState = state ∧ message.deliveryState ≠ .accepted := by
  unfold transitionDelivery at h
  split_ifs at h with hstate haccepted hsame
  · obtain rfl := Except.ok.inj h
    exact .inl ⟨haccepted, hstate⟩
  · obtain rfl := Except.ok.inj h
    exact .inr ⟨rfl, hsame, haccepted⟩

/-- **A step changes the stored state only from accepted to a terminal one.** -/
theorem deliveryState_of_step {payload : Payload} {s s' : System ι} {action : Action ι}
    (h : s.step payload action = some s') : s'.message.deliveryState = s.message.deliveryState ∨
      s.message.deliveryState = .accepted ∧ s'.message.deliveryState ≠ .accepted := by
  rcases did_of_step h with ⟨hmessage, -, -⟩ | ⟨i, now, before, -, -, hmessage, -, -⟩ |
    ⟨i, -, hmessage, -, -⟩
  · exact .inl (by rw [hmessage])
  · rcases transitionDelivery_ok hmessage with hfirst | ⟨hsame, -, -⟩
    · exact .inr hfirst
    · exact .inl (by rw [hsame])
  · exact .inl (by rw [hmessage])

/-! ### Runs -/

/-- **At most one report is on its way**: a call is pending only if nothing was sent and no other
one is, and none is as long as the message is accepted. -/
structure Single (s : System ι) : Prop where
  sent : s.attempts.length ≤ 1
  alone : ∀ i j, s.Pending i → s.Pending j → i = j
  unsent : ∀ i, s.Pending i → s.attempts = []
  accepted : s.message.deliveryState = .accepted → s.attempts = [] ∧ ∀ i, ¬ s.Pending i

omit [DecidableEq ι] in
theorem Initial.single {s : System ι} (h : s.Initial) : s.Single := by
  have hnone : ∀ i, ¬ s.Pending i := by
    rintro i ⟨message, hphase⟩
    rw [h.called i] at hphase
    cases hphase
  refine ⟨by rw [h.attempts]; exact Nat.zero_le _, fun i _ hi ↦ absurd hi (hnone i),
    fun i hi ↦ absurd hi (hnone i), fun _ ↦ ⟨h.attempts, hnone⟩⟩

/-- A step that meets the condition keeps it so. -/
theorem Single.step {payload : Payload} {s s' : System ι} {action : Action ι} (hs : s.Single)
    (hfresh : s.fresh action = true) (h : s.step payload action = some s') : s'.Single := by
  rcases did_of_step h with ⟨hmessage, hattempts, hpending⟩ |
    ⟨i, now, before, rfl, hphase, hmessage, hattempts, hpending⟩ |
    ⟨i, hi, hmessage, hattempts, hpending⟩
  · refine ⟨hattempts ▸ hs.sent, fun i j hi hj ↦ hs.alone i j (hpending i hi) (hpending j hj),
      fun i hi ↦ hattempts ▸ hs.unsent i (hpending i hi), fun haccepted ↦ ?_⟩
    obtain ⟨hsent, hnone⟩ := hs.accepted (hmessage ▸ haccepted)
    exact ⟨hattempts ▸ hsent, fun i hi ↦ hnone i (hpending i hi)⟩
  · rcases transitionDelivery_ok hmessage with ⟨haccepted, hterminal⟩ | ⟨hsame, hstate, hterminal⟩
    · -- the first transition: nothing was pending, and only this call is
      obtain ⟨hsent, hnone⟩ := hs.accepted haccepted
      have honly : ∀ j, s'.Pending j → j = i := fun j hj ↦
        (hpending j hj).elim (fun hj ↦ absurd hj (hnone j)) fun hj ↦ hj.1
      exact ⟨hattempts ▸ hs.sent, fun j k hj hk ↦ (honly j hj).trans (honly k hk).symm,
        fun j _ ↦ hattempts ▸ hsent, fun h ↦ absurd h hterminal⟩
    · -- a repetition: its call has not read an accepted message
      have hread : before.deliveryState ≠ .accepted := by
        intro hbefore
        simp only [fresh, hphase, hbefore, hstate, decide_true, Bool.and_self, Bool.not_true] at hfresh
        cases hfresh
      have hold : ∀ j, s'.Pending j → s.Pending j := fun j hj ↦
        (hpending j hj).resolve_right fun hj ↦ hread hj.2
      refine ⟨hattempts ▸ hs.sent, fun j k hj hk ↦ hs.alone j k (hold j hj) (hold k hk),
        fun j hj ↦ hattempts ▸ hs.unsent j (hold j hj), fun h ↦ ?_⟩
      rw [hsame] at h
      exact absurd h hterminal
  · have hnone : ∀ j, ¬ s'.Pending j := fun j hj ↦
      (hpending j hj).1 (hs.alone j i (hpending j hj).2 hi)
    refine ⟨?_, fun j _ hj ↦ absurd hj (hnone j), fun j hj ↦ absurd hj (hnone j), fun h ↦ ?_⟩
    · rw [hattempts, hs.unsent i hi]
      exact le_refl 1
    · rw [hmessage] at h
      exact absurd hi ((hs.accepted h).2 i)

theorem Single.run {payload : Payload} {s s' : System ι} {actions : List (Action ι)}
    (hs : s.Single) (hfresh : s.eachFresh payload actions = true)
    (h : s.run payload actions = some s') : s'.Single := by
  induction actions generalizing s with
  | nil =>
    obtain rfl := Option.some.inj h
    exact hs
  | cons action actions ih =>
    obtain ⟨next, hnext, hrest⟩ := Option.bind_eq_some_iff.1 h
    rw [eachFresh, hnext, Bool.and_eq_true] at hfresh
    exact ih (hs.step hfresh.1 hnext) hfresh.2 hrest

/-- The stored state after a run, and how often it has changed. -/
theorem changes_le {payload : Payload} {s s' : System ι} {actions : List (Action ι)}
    (h : s.run payload actions = some s') :
    (s'.message.deliveryState = s.message.deliveryState ∧ s.changes payload actions = 0) ∨
      s.message.deliveryState = .accepted ∧ s'.message.deliveryState ≠ .accepted ∧
        s.changes payload actions = 1 := by
  induction actions generalizing s with
  | nil =>
    obtain rfl := Option.some.inj h
    exact .inl ⟨rfl, rfl⟩
  | cons action actions ih =>
    obtain ⟨next, hnext, hrest⟩ := Option.bind_eq_some_iff.1 h
    have hchanges : s.changes payload (action :: actions) =
        (if next.message.deliveryState = s.message.deliveryState then 0 else 1) +
          next.changes payload actions := by
      rw [changes, hnext]
    rw [hchanges]
    rcases deliveryState_of_step hnext with hsame | ⟨haccepted, hterminal⟩
    · rw [if_pos hsame, Nat.zero_add, ← hsame]
      exact ih hrest
    · rw [if_neg fun h ↦ hterminal (h.trans haccepted)]
      rcases ih hrest with ⟨hstate, hzero⟩ | ⟨habsurd, -⟩
      · refine .inr ⟨haccepted, ?_, by rw [hzero]⟩
        rw [hstate]
        exact hterminal
      · exact absurd habsurd hterminal

/-- **A delivery is reported once.** In every run, the stored state changes at most once, and only
from accepted to a terminal one. And at most one callback is attempted, if no call that has read an
accepted message finds it in the state that it asks for. -/
theorem delivered_once {payload : Payload} {s s' : System ι} {actions : List (Action ι)}
    (h : s.Initial) (hrun : s.run payload actions = some s') :
    s.changes payload actions ≤ 1 ∧
      (s'.message.deliveryState = s.message.deliveryState ∨
        s.message.deliveryState = .accepted ∧ s'.message.deliveryState ≠ .accepted) ∧
      (s.eachFresh payload actions = true → s'.attempts.length ≤ 1) := by
  refine ⟨?_, ?_, fun hfresh ↦ (h.single.run hfresh hrun).sent⟩
  · rcases changes_le hrun with ⟨-, hzero⟩ | ⟨-, -, hone⟩ <;> omega
  · rcases changes_le hrun with ⟨hsame, -⟩ | ⟨haccepted, hterminal, -⟩
    · exact .inl hsame
    · exact .inr ⟨haccepted, hterminal⟩

end System

/-! ### Two calls on one message -/

/-- An accepted message with an address for its callbacks. -/
def acceptedMessage : SmsMessage where
  messageId := "m"
  batchId := none
  provider := .twilio
  providerMessageId := "SM1"
  direction := .outbound
  channel := .sms
  «from» := "+15550000001"
  «to» := "+15550000002"
  body := "outbound"
  media := []
  metadata := Std.ExtTreeMap.empty.insert "status_callback" (.string "http://localhost/status")
  peer := "+15550000002"
  deliveryState := .accepted
  createdAt := 0
  updatedAt := 0

/-- Two calls that report the delivery. -/
def twoCalls : System Bool where
  message := acceptedMessage
  destination := none
  callbacks := ∅
  attempts := []
  calls := fun _ ↦ { state := .delivered }

/-- A callback without parameters and without a body. -/
def noPayload : Payload := fun _ _ _ ↦ (∅, "")

/-- **Two calls that overlap send two reports.** -/
theorem two_reports :
    (twoCalls.run noPayload [.read false, .read true, .transition false 1, .transition true 2,
      .callback false ⟨"a", 3, .ok (204, "")⟩, .callback true ⟨"b", 4, .ok (204, "")⟩]).map
        (·.attempts.length) = some 2 := by decide

/-- Two calls, one after the other. -/
def inTurn : List (Action Bool) :=
  [.read false, .transition false 1, .callback false ⟨"a", 3, .ok (204, "")⟩, .record false,
    .read true, .transition true 5]

/-- Two calls, one after the other, send one report. -/
theorem one_report : ∃ s, twoCalls.run noPayload inTurn = some s ∧ s.attempts.length ≤ 1 := by
  obtain ⟨s, hs⟩ := Option.isSome_iff_exists.1
    (show (twoCalls.run noPayload inTurn).isSome = true by decide)
  exact ⟨s, hs, (System.delivered_once (s := twoCalls) ⟨fun _ ↦ rfl, rfl⟩ hs).2.2
    (by decide)⟩

end Sqrzl.Sms
