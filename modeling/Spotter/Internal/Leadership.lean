import Spotter.Library.History
import Spotter.Internal.LifecycleSteps

/-! # The order of leadership notifications

The candidate polls whether it leads and starts a goroutine for each change it observes. The goroutine runs the elector's
callback, which sends the value to the channel the server's main loop reads. The flag of the server follows the last value
sent, so it is the last value observed if no notification is sent after a later one. Nothing orders the goroutines.

The answers of the election store are choices of the environment, so sessions and campaigns are left out. The elector's
callback is registered once, before the candidate waits, and is the only one.
-/

namespace Spotter.Internal

/-- What the candidate last dispatched. -/
structure LeaderState where
  known : Bool := false
  value : Bool := false
deriving DecidableEq

/-- Whether a newly observed value is dispatched, and the state that records it. -/
def LeaderState.shouldDispatch (s : LeaderState) (value : Bool) : Bool × LeaderState :=
  if s.known = true ∧ s.value = value then (false, s) else (true, { known := true, value := value })

/-- The answer of `IsLeader`; without a session there is no leader. -/
inductive IsLeaderResult where
  | elected (isLeader : Bool)
  | noLeader
  | failed
deriving DecidableEq

/-- The value that `Wait` goes on with; any error but the missing leader makes it poll again. -/
def IsLeaderResult.observation : IsLeaderResult → Option Bool
  | .elected isLeader => some isLeader
  | .noLeader => some false
  | .failed => none

inductive WaitPhase where
  | checking
  | parked
  | polling
  | exited
deriving DecidableEq

inductive NotificationPhase where
  | spawned
  | sending
  | delivered
  | dropped
deriving DecidableEq

/-- A goroutine started by `Wait`, with the value it carries. -/
structure Notification where
  isLeader : Bool
  phase : NotificationPhase := .spawned
deriving DecidableEq

/-- The capacity of the channel of leader changes. -/
def leaderChangesCapacity : ℕ := 2048

/-- The candidate, the elector and the server; `notifications` are in the order of their dispatch and `observations` records
what `Wait` observed. -/
structure Leadership where
  observed : LeaderState := {}
  wait : WaitPhase := .checking
  cancelled : Bool := false
  stopped : Bool := false
  notifications : List Notification := []
  observations : List Bool := []
  server : Server := {}

/-- A step of the wait loop, the end of the elector's context, its stop, a step of a notification, or one of the server. -/
inductive LeadershipStep where
  | check
  | tick
  | exit
  | poll (result : IsLeaderResult)
  | cancel
  | stop
  | call (k : ℕ)
  | send (k : ℕ)
  | giveUp (k : ℕ)
  | serve (step : ServerStep)
deriving DecidableEq

variable (s : Leadership)

namespace Leadership

/-- `Wait` goes on with an observed value. -/
def dispatch (isLeader : Bool) : Leadership :=
  let (changed, observed) := s.observed.shouldDispatch isLeader
  { s with
    observed := observed, wait := .checking, observations := s.observations ++ [isLeader]
    notifications := if changed then s.notifications ++ [{ isLeader := isLeader }] else s.notifications }

def poll (result : IsLeaderResult) : Leadership :=
  if s.wait = .polling then
    match result.observation with
    | some isLeader => s.dispatch isLeader
    | none => { s with wait := .checking }
  else s

def setNotification (k : ℕ) (n : Notification) (phase : NotificationPhase) : Leadership :=
  { s with notifications := s.notifications.set k { n with phase := phase } }

/-- The callback up to its send: a stopped elector forwards nothing. -/
def call (k : ℕ) : Leadership :=
  match s.notifications[k]? with
  | some n => if n.phase = .spawned then s.setNotification k n (if s.stopped then .dropped else .sending) else s
  | none => s

/-- The send, which waits for room in the channel. -/
def send (k : ℕ) : Leadership :=
  match s.notifications[k]? with
  | some n =>
    if n.phase = .sending ∧ s.server.leaderCh.length < leaderChangesCapacity then
      { s.setNotification k n .delivered with server := s.server.step (.message n.isLeader) }
    else s
  | none => s

/-- The callback's other way out, once the elector's context is done. -/
def giveUp (k : ℕ) : Leadership :=
  match s.notifications[k]? with
  | some n => if n.phase = .sending ∧ s.cancelled = true then s.setNotification k n .dropped else s
  | none => s

/-- A step of the server itself; messages come from the notifications only. -/
def serve : ServerStep → Leadership
  | .message _ => s
  | step => { s with server := s.server.step step }

def step (s : Leadership) : LeadershipStep → Leadership
  | .check => if s.wait = .checking then { s with wait := if s.cancelled then .exited else .parked } else s
  | .tick => if s.wait = .parked then { s with wait := .polling } else s
  | .exit => if s.wait = .parked ∧ s.cancelled = true then { s with wait := .exited } else s
  | .poll result => s.poll result
  | .cancel => { s with cancelled := true }
  | .stop => { s with stopped := true }
  | .call k => s.call k
  | .send k => s.send k
  | .giveUp k => s.giveUp k
  | .serve step => s.serve step

def after (history : List LeadershipStep) : Leadership := history.foldl step {}

theorem after_append (history : List LeadershipStep) (next : LeadershipStep) :
    after (history ++ [next]) = (after history).step next := by
  simp only [after, List.foldl_append, List.foldl_cons, List.foldl_nil]

end Leadership

/-- A value is dispatched unless it is the last one dispatched. -/
theorem LeaderState.shouldDispatch_cases (s : LeaderState) (value : Bool) :
    (s.shouldDispatch value = (false, s) ∧ s = { known := true, value := value }) ∨
      s.shouldDispatch value = (true, { known := true, value := value }) := by
  unfold LeaderState.shouldDispatch
  split_ifs with same
  · obtain ⟨known, value⟩ := s
    obtain ⟨rfl, rfl⟩ := same
    exact .inl ⟨rfl, rfl⟩
  · exact .inr rfl

namespace Leadership

variable {s : Leadership} {k : ℕ} {n : Notification} {next : LeadershipStep}

/-- What a step does to what the candidate dispatched, to its observations, to the notifications and to the server. -/
inductive Move (s : Leadership) (next : LeadershipStep) : LeaderState → List Bool → List Notification → Server → Prop where
  | stays : Move s next s.observed s.observations s.notifications s.server
  | repeats (isLeader : Bool) (same : s.observed = { known := true, value := isLeader }) :
      Move s next s.observed (s.observations ++ [isLeader]) s.notifications s.server
  | dispatches (isLeader : Bool) :
      Move s next { known := true, value := isLeader } (s.observations ++ [isLeader])
        (s.notifications ++ [{ isLeader := isLeader }]) s.server
  | advances (k : ℕ) (n : Notification) (phase : NotificationPhase) (present : s.notifications[k]? = some n)
      (open_ : n.phase ≠ .delivered) (kept : phase ≠ .delivered) :
      Move s next s.observed s.observations (s.notifications.set k { n with phase := phase }) s.server
  | delivers (k : ℕ) (n : Notification) (sends : next = .send k) (present : s.notifications[k]? = some n)
      (open_ : n.phase ≠ .delivered) :
      Move s next s.observed s.observations (s.notifications.set k { n with phase := .delivered })
        (s.server.step (.message n.isLeader))
  | serves (step : ServerStep) (own : ∀ isLeader, step ≠ .message isLeader) :
      Move s next s.observed s.observations s.notifications (s.server.step step)

theorem dispatch_move (isLeader : Bool) :
    Move s next (s.dispatch isLeader).observed (s.dispatch isLeader).observations (s.dispatch isLeader).notifications
      (s.dispatch isLeader).server := by
  simp only [dispatch]
  rcases s.observed.shouldDispatch_cases isLeader with ⟨unchanged, same⟩ | changed
  · simp only [unchanged]
    exact .repeats isLeader same
  · simp only [changed]
    exact .dispatches isLeader

theorem serve_move (step : ServerStep) :
    Move s next (s.serve step).observed (s.serve step).observations (s.serve step).notifications (s.serve step).server := by
  cases step with
  | message isLeader => exact .stays
  | receive => exact .serves .receive (fun _ => ServerStep.noConfusion)
  | receiveStop => exact .serves .receiveStop (fun _ => ServerStep.noConfusion)
  | callStop => exact .serves .callStop (fun _ => ServerStep.noConfusion)
  | run g result => exact .serves (.run g result) (fun _ => ServerStep.noConfusion)
  | write i => exact .serves (.write i) (fun _ => ServerStep.noConfusion)

theorem step_move (s : Leadership) (next : LeadershipStep) :
    Move s next (s.step next).observed (s.step next).observations (s.step next).notifications (s.step next).server := by
  cases next with
  | check =>
    simp only [step]
    by_cases checking : s.wait = .checking
    · rw [if_pos checking]
      exact .stays
    · rw [if_neg checking]
      exact .stays
  | tick | exit =>
    simp only [step]
    split_ifs
    · exact .stays
    · exact .stays
  | poll result =>
    simp only [step, poll]
    split_ifs
    · cases result.observation with
      | some isLeader => exact dispatch_move isLeader
      | none => exact .stays
    · exact .stays
  | cancel | stop => exact .stays
  | call k =>
    simp only [step, call]
    cases present : s.notifications[k]? with
    | none => exact .stays
    | some n =>
      by_cases spawned : n.phase = .spawned
      · simp only [if_pos spawned]
        refine .advances k n _ present (by rw [spawned]; exact NotificationPhase.noConfusion) ?_
        split_ifs
        · exact NotificationPhase.noConfusion
        · exact NotificationPhase.noConfusion
      · simp only [if_neg spawned]
        exact .stays
  | send k =>
    simp only [step, send]
    cases present : s.notifications[k]? with
    | none => exact .stays
    | some n =>
      simp only
      split_ifs with ready
      · exact .delivers k n rfl present (by rw [ready.1]; exact NotificationPhase.noConfusion)
      · exact .stays
  | giveUp k =>
    simp only [step, giveUp]
    cases present : s.notifications[k]? with
    | none => exact .stays
    | some n =>
      simp only
      split_ifs with done
      · exact .advances k n .dropped present (by rw [done.1]; exact NotificationPhase.noConfusion) NotificationPhase.noConfusion
      · exact .stays
  | serve step => exact serve_move step

variable {observed : LeaderState} {observations : List Bool} {notifications : List Notification} {server : Server}

/-- The value last dispatched. -/
def last (observed : LeaderState) : Option Bool := if observed.known then some observed.value else none

/-- The last observation and the last notification carry the value last dispatched. -/
structure Dispatched (observed : LeaderState) (observations : List Bool) (notifications : List Notification) : Prop where
  observations : observations.getLast? = last observed
  notifications : (notifications.map Notification.isLeader).getLast? = last observed

theorem map_set_phase (present : notifications[k]? = some n) (phase : NotificationPhase) :
    (notifications.set k { n with phase := phase }).map Notification.isLeader = notifications.map Notification.isLeader := by
  apply List.ext_getElem?
  intro j
  rcases eq_or_ne k j with rfl | other
  · obtain ⟨inside, _⟩ := List.getElem?_eq_some_iff.mp present
    rw [List.getElem?_map, List.getElem?_map, List.getElem?_set_self inside, present]
    rfl
  · rw [List.getElem?_map, List.getElem?_map, List.getElem?_set_ne other]

theorem Move.dispatched (move : Move s next observed observations notifications server)
    (before : Dispatched s.observed s.observations s.notifications) : Dispatched observed observations notifications := by
  cases move with
  | stays => exact before
  | repeats isLeader same =>
    refine ⟨?_, before.notifications⟩
    rw [List.getLast?_concat, same]
    rfl
  | dispatches isLeader =>
    refine ⟨?_, ?_⟩
    · rw [List.getLast?_concat]
      rfl
    · rw [List.map_append, List.map_singleton, List.getLast?_concat]
      rfl
  | advances k n phase present | delivers k n sends present =>
    refine ⟨before.observations, ?_⟩
    rw [map_set_phase present]
    exact before.notifications
  | serves step => exact before

/-! ## What was delivered -/

/-- The values delivered, in the order of their dispatch. -/
def delivered (notifications : List Notification) : List Bool :=
  (notifications.filter fun n => decide (n.phase = .delivered)).map Notification.isLeader

section

variable (present : notifications[k]? = some n)

include present

/-- A notification between those before and those after it, and what becomes of the list when it changes. -/
theorem around (next : Notification) : ∃ before after,
    notifications = before ++ n :: after ∧ before.length = k ∧ notifications.set k next = before ++ next :: after := by
  obtain ⟨bound, rfl⟩ := List.getElem?_eq_some_iff.mp present
  exact List.exists_of_set bound

theorem delivered_advance (open_ : n.phase ≠ .delivered) {phase : NotificationPhase}
    (kept : phase ≠ .delivered) : delivered (notifications.set k { n with phase := phase }) = delivered notifications := by
  obtain ⟨before, after, list, _, changed⟩ := around present { n with phase := phase }
  rw [changed, list]
  simp [delivered, open_, kept]

/-- A notification sent before any later one is the last of those delivered. -/
theorem delivered_send (open_ : n.phase ≠ .delivered) (first : ∀ later ∈ notifications.drop (k + 1), later.phase ≠ .delivered) :
    delivered (notifications.set k { n with phase := .delivered }) = delivered notifications ++ [n.isLeader] := by
  obtain ⟨before, after, list, length, changed⟩ := around present { n with phase := .delivered }
  have none : after.filter (fun n => decide (n.phase = .delivered)) = [] := by
    rw [List.filter_eq_nil_iff]
    intro later member
    simpa using first later (by simp [list, ← length, member])
  rw [changed, list]
  simp [delivered, open_, none]

end

end Leadership

namespace Server

variable {s : Server} {step : ServerStep}

/-- The flag a server has once it has read its channel. -/
def finalFlag (s : Server) : Bool := s.leaderCh.getLastD s.isLeader

/-- The server's own steps leave its final flag alone, unless they stop it. -/
theorem step_finalFlag (own : ∀ isLeader, step ≠ .message isLeader) (running : (s.step step).stopped = false) :
    s.stopped = false ∧ (s.step step).finalFlag = s.finalFlag := by
  have move := step_moves s step
  generalize s.step step = t at move running
  cases move with
  | posts isLeader => exact absurd rfl (own isLeader)
  | ignores isLeader rest channel ignored =>
    -- The value that is read is the flag already.
    have same : s.isLeader = isLeader := ignored.resolve_right (by rw [show s.stopped = false from running]; exact Bool.false_ne_true)
    refine ⟨running, ?_⟩
    rw [finalFlag, finalFlag, channel, List.getLastD_cons, same]
  | changes isLeader rest channel =>
    refine ⟨running, ?_⟩
    rw [finalFlag, finalFlag, channel, List.getLastD_cons]
  | signals | stops => cases running
  | _ => exact ⟨running, rfl⟩

end Server

namespace Leadership

variable {s : Leadership} {next : LeadershipStep} {observed : LeaderState} {observations : List Bool}
  {notifications : List Notification} {server : Server}

/-- A running server's flag will be the value last delivered. -/
def Followed (notifications : List Notification) (server : Server) : Prop :=
  server.stopped = false → server.finalFlag = (delivered notifications).getLastD false

/-- The step sends no notification after a later one. -/
def InOrder (s : Leadership) : LeadershipStep → Prop
  | .send k => ∀ later ∈ s.notifications.drop (k + 1), later.phase ≠ .delivered
  | _ => True

theorem Move.followed (move : Move s next observed observations notifications server) (inOrder : s.InOrder next)
    (before : Followed s.notifications s.server) : Followed notifications server := by
  intro running
  cases move with
  | stays | repeats => exact before running
  | dispatches isLeader =>
    rw [before running]
    simp [delivered]
  | advances k n phase present open_ kept =>
    rw [delivered_advance present open_ kept]
    exact before running
  | delivers k n sends present open_ =>
    subst sends
    rw [delivered_send present open_ inOrder]
    simp [Server.finalFlag, Server.step]
  | serves step own =>
    obtain ⟨earlier, same⟩ := Server.step_finalFlag own running
    rw [same]
    exact before earlier

/-- In a run that sends the notifications in order, the flag of a running server that has read every notification is the value
last observed. -/
theorem flag_is_last_observed {history : List LeadershipStep}
    (inOrder : Library.History.AllSteps (fun before next => (after before).InOrder next) history)
    (allDelivered : ∀ n ∈ (after history).notifications, n.phase = .delivered)
    (consumed : (after history).server.leaderCh = []) (running : (after history).server.stopped = false) :
    (after history).server.isLeader = (after history).observations.getLastD false := by
  have invariant : Dispatched (after history).observed (after history).observations (after history).notifications ∧
      Followed (after history).notifications (after history).server := by
    refine Library.History.invariant
      (fun history => Dispatched (after history).observed (after history).observations (after history).notifications ∧
        Followed (after history).notifications (after history).server) ?_ ?_ inOrder
    · exact ⟨⟨rfl, rfl⟩, fun _ => rfl⟩
    · rintro earlier next ordered ⟨dispatched, followed⟩
      rw [after_append]
      exact ⟨(step_move _ next).dispatched dispatched, (step_move _ next).followed ordered followed⟩
  obtain ⟨dispatched, followed⟩ := invariant
  have flag := followed running
  rw [Server.finalFlag, consumed, List.getLastD_nil] at flag
  have everything : delivered (after history).notifications = (after history).notifications.map Notification.isLeader := by
    rw [delivered, List.filter_eq_self.mpr]
    simpa using allDelivered
  rw [flag, everything, List.getLastD_eq_getLast?, List.getLastD_eq_getLast?, dispatched.notifications, dispatched.observations]

/-- Leadership is gained and lost, and both changes are delivered in order. -/
def gainAndLoss : List LeadershipStep :=
  [.check, .tick, .poll (.elected true), .check, .tick, .poll (.elected false), .call 0, .call 1, .send 0, .send 1,
    .serve .receive, .serve (.run .main .failed), .serve .receive]

theorem gainAndLoss_followed :
    (after gainAndLoss).observations = [true, false] ∧ (after gainAndLoss).server.isLeader = false := by
  refine ⟨rfl, ?_⟩
  refine flag_is_last_observed ?_ ?_ rfl rfl
  · simp only [gainAndLoss, Library.History.allSteps_cons, Library.History.allSteps_nil, InOrder, true_and, and_true]
    decide
  · decide

/-- Leadership is gained and lost, and the second notification overtakes the first. -/
def overtaken : List LeadershipStep :=
  [.check, .tick, .poll (.elected true), .check, .tick, .poll (.elected false), .call 0, .call 1, .send 1, .send 0,
    .serve .receive, .serve .receive]

/-- The server goes on to lead after the candidate has observed that it does not. -/
theorem overtaken_flag_stays :
    (∀ n ∈ (after overtaken).notifications, n.phase = .delivered) ∧ (after overtaken).server.leaderCh = [] ∧
      (after overtaken).server.stopped = false ∧ (after overtaken).observations = [true, false] ∧
      (after overtaken).server.isLeader = true := by
  refine ⟨?_, rfl, rfl, rfl, rfl⟩
  decide

end Leadership

end Spotter.Internal
