import Obsidian.Data.Channels
import Obsidian.Data.Decimal
import Obsidian.Data.Interleavings
import Obsidian.Data.Text

namespace Obsidian.App.Alerts

open Obsidian.Data

/-! # The alert queue

`Send`, `Stop` and the worker of the `alerts` package as goroutines that share the queue and the
stop signal.  An operation on a channel is one step; where a `select` could go on in two ways, the
turn says which.
-/

structure Alert where
  id : Bytes
  /-- None for the zero time. -/
  timestamp : Option Int
  source : Bytes
  message : Bytes
deriving DecidableEq, Repr

def Alert.withDefaults (nanos now : Int) (alert : Alert) : Alert :=
  { alert with
    id := if alert.id = [] then str "alert-" ++ itoa nanos else alert.id
    timestamp := some (alert.timestamp.getD now)
    source := if alert.source = [] then str "obsidian-waf" else alert.source }

inductive Worker where
  | looping
  /-- Waiting in the `select`. -/
  | parked
  | holding (alert : Alert)
  | draining
  | receiving
  | drained (alert : Alert)
  | returned
deriving DecidableEq, Repr

structure Accepted where
  alert : Alert
  /-- The worker had returned. -/
  late : Bool
deriving DecidableEq, Repr

structure Service where
  alertChan : Channel Alert
  /-- `stopCh` is closed. -/
  stopped : Bool := false
  worker : Worker := .looping
  accepted : List Accepted := []
  /-- What was passed to `processAlert`. -/
  processed : List Alert := []

def newService (bufferSize : Nat) : Service := { alertChan := .make bufferSize }

inductive Goroutine where
  | worker
  | stop (closed returned : Bool)
  | send (alert : Alert)
  | sent (alert : Alert) (err : Option GoError)
deriving DecidableEq, Repr

structure Turn where
  nanos : Int := 0
  now : Int := 0
  stopFirst : Bool := false
deriving DecidableEq, Repr

namespace Service

variable (s : Service)

def accept (alert : Alert) : Service :=
  { s with accepted := s.accepted ++ [⟨alert, s.worker = .returned⟩] }

/-- The `select` of `Send`: a waiting worker gets the alert, or the buffer if there is room. -/
def queue (alert : Alert) : Option GoError × Service :=
  if s.worker = .parked then (none, { s.accept alert with worker := .holding alert })
  else
    match s.alertChan.trySend alert with
    | some alertChan => (none, { s.accept alert with alertChan })
    | none => (some (str "alert queue full"), s)

def work (stopFirst : Bool) : Service :=
  match s.worker with
  | .looping =>
    match s.alertChan.receive with
    | none => { s with worker := if s.stopped then .draining else .parked }
    | some (alert, alertChan) =>
      if s.stopped ∧ stopFirst then { s with worker := .draining }
      else { s with worker := .holding alert, alertChan }
  | .holding alert => { s with worker := .looping, processed := s.processed ++ [alert] }
  | .draining => { s with worker := if s.alertChan.buffer.length = 0 then .returned else .receiving }
  | .receiving =>
    match s.alertChan.receive with
    | none => s
    | some (alert, alertChan) => { s with worker := .drained alert, alertChan }
  | .drained alert => { s with worker := .draining, processed := s.processed ++ [alert] }
  | .parked | .returned => s

/-- `close(s.stopCh)`, which a waiting worker notices. -/
def close : Service :=
  { s with stopped := true, worker := if s.worker = .parked then .draining else s.worker }

end Service

def Goroutine.advance (g : Goroutine) (turn : Turn) (s : Service) : Goroutine × Service :=
  match g with
  | .worker => (.worker, s.work turn.stopFirst)
  | .stop false returned => (.stop true returned, s.close)
  | .stop true false => (.stop true (s.worker = .returned), s)
  | .stop true true => (g, s)
  | .send alert =>
    let alert := alert.withDefaults turn.nanos turn.now
    ((.sent alert (s.queue alert).1), (s.queue alert).2)
  | .sent _ _ => (g, s)

def Goroutine.accepted : Goroutine → Option Alert
  | .sent alert none => some alert
  | _ => none

def start (bufferSize : Nat) (alerts : List Alert) : Threads Service Goroutine :=
  ⟨newService bufferSize, .worker :: .stop false false :: alerts.map .send⟩

/-! ## Where the alerts are -/

def Worker.inHand : Worker → List Alert
  | .holding alert | .drained alert => [alert]
  | _ => []

def Service.inTime (s : Service) : List Alert :=
  (s.accepted.filter fun e => e.late = false).map Accepted.alert

structure Service.Keeps (s : Service) : Prop where
  /-- Every alert accepted was processed, or is in the worker's hand or in the queue. -/
  order : s.accepted.map Accepted.alert = s.processed ++ s.worker.inHand ++ s.alertChan.buffer
  parked : s.worker = .parked → s.alertChan.buffer = []
  working : s.worker ≠ .returned → s.inTime = s.accepted.map Accepted.alert
  /-- The worker returns with nothing left to do. -/
  returned : s.worker = .returned → s.processed = s.inTime

namespace Service

variable {s : Service}

theorem inTime_accept_working (alert : Alert) (working : s.worker ≠ .returned) :
    (s.accept alert).inTime = s.inTime ++ [alert] := by
  simp [inTime, accept, working]

theorem inTime_accept_returned (alert : Alert) (returned : s.worker = .returned) :
    (s.accept alert).inTime = s.inTime := by
  simp [inTime, accept, returned]

theorem accepted_accept (alert : Alert) :
    (s.accept alert).accepted.map Accepted.alert = s.accepted.map Accepted.alert ++ [alert] := by
  simp [accept]

theorem Keeps.inTime_accept (keeps : s.Keeps) (alert : Alert) (working : s.worker ≠ .returned) :
    (s.accept alert).inTime = (s.accept alert).accepted.map Accepted.alert := by
  rw [inTime_accept_working alert working, keeps.working working, accepted_accept]

theorem Keeps.queue (keeps : s.Keeps) (alert : Alert) : (s.queue alert).2.Keeps := by
  unfold Service.queue
  split_ifs with parked
  · have working : s.worker ≠ .returned := by rw [parked]; decide
    have handed : (s.accept alert).accepted.map Accepted.alert =
        s.processed ++ [alert] ++ s.alertChan.buffer := by
      rw [accepted_accept, keeps.order, parked, keeps.parked parked]
      simp [Worker.inHand]
    exact ⟨handed, nofun, fun _ => keeps.inTime_accept alert working, nofun⟩
  · cases sent : s.alertChan.trySend alert with
    | none => exact keeps
    | some alertChan =>
      have queued : (s.accept alert).accepted.map Accepted.alert =
          s.processed ++ s.worker.inHand ++ alertChan.buffer := by
        rw [accepted_accept, keeps.order, Channel.buffer_trySend sent, List.append_assoc _ _ [alert]]
      refine ⟨queued, fun idle => absurd idle parked, fun working => ?_, fun returned => ?_⟩
      · exact keeps.inTime_accept alert working
      · exact (keeps.returned returned).trans (inTime_accept_returned (s := s) alert returned).symm

theorem Keeps.take (keeps : s.Keeps) {alert : Alert} {alertChan : Channel Alert} {worker : Worker}
    (received : s.alertChan.receive = some (alert, alertChan)) (idle : s.worker.inHand = [])
    (working : s.worker ≠ .returned) (takes : worker = .holding alert ∨ worker = .drained alert) :
    ({ s with worker, alertChan } : Service).Keeps := by
  have order : s.accepted.map Accepted.alert = s.processed ++ [alert] ++ alertChan.buffer := by
    rw [keeps.order, idle, Channel.buffer_receive received]
    simp
  have before : s.inTime = s.accepted.map Accepted.alert := keeps.working working
  rcases takes with rfl | rfl
  · exact ⟨order, nofun, fun _ => before, nofun⟩
  · exact ⟨order, nofun, fun _ => before, nofun⟩

theorem Keeps.process (keeps : s.Keeps) {alert : Alert} {worker : Worker}
    (holds : s.worker.inHand = [alert]) (goes : worker = .looping ∨ worker = .draining) :
    ({ s with worker, processed := s.processed ++ [alert] } : Service).Keeps := by
  have order : s.accepted.map Accepted.alert =
      s.processed ++ [alert] ++ [] ++ s.alertChan.buffer := by
    rw [keeps.order, holds, List.append_nil]
  have working : s.worker ≠ .returned := by
    intro returned
    rw [returned] at holds
    cases holds
  have before : s.inTime = s.accepted.map Accepted.alert := keeps.working working
  rcases goes with rfl | rfl
  · exact ⟨order, nofun, fun _ => before, nofun⟩
  · exact ⟨order, nofun, fun _ => before, nofun⟩

theorem Keeps.goOn (keeps : s.Keeps) {worker : Worker} (idle : s.worker.inHand = [])
    (working : s.worker ≠ .returned) (still : worker.inHand = [])
    (empty : worker = .parked ∨ worker = .returned → s.alertChan.buffer = []) :
    ({ s with worker } : Service).Keeps := by
  have before : s.inTime = s.accepted.map Accepted.alert := keeps.working working
  have order : s.accepted.map Accepted.alert = s.processed ++ s.alertChan.buffer := by
    rw [keeps.order, idle, List.append_nil]
  refine ⟨?_, fun parked => empty (.inl parked), fun _ => before, fun returned => ?_⟩
  · change s.accepted.map Accepted.alert = s.processed ++ worker.inHand ++ s.alertChan.buffer
    rw [still, List.append_nil, order]
  · change s.processed = s.inTime
    rw [before, order, empty (.inr returned), List.append_nil]

theorem Keeps.work (keeps : s.Keeps) (stopFirst : Bool) : (s.work stopFirst).Keeps := by
  unfold Service.work
  cases phase : s.worker with
  | looping =>
    have idle : s.worker.inHand = [] := by rw [phase]; rfl
    have working : s.worker ≠ .returned := by rw [phase]; decide
    dsimp only
    cases received : s.alertChan.receive with
    | none =>
      refine keeps.goOn idle working ?_ fun _ => Channel.buffer_of_receive_none received
      split_ifs <;> rfl
    | some pair =>
      obtain ⟨alert, alertChan⟩ := pair
      dsimp only
      split_ifs with stops
      · exact keeps.goOn idle working rfl nofun
      · exact keeps.take received idle working (.inl rfl)
  | parked => exact keeps
  | holding alert => exact keeps.process (by rw [phase]; rfl) (.inl rfl)
  | draining =>
    have idle : s.worker.inHand = [] := by rw [phase]; rfl
    have working : s.worker ≠ .returned := by rw [phase]; decide
    dsimp only
    split_ifs with empty
    · exact keeps.goOn idle working rfl fun _ => List.eq_nil_of_length_eq_zero empty
    · exact keeps.goOn idle working rfl nofun
  | receiving =>
    dsimp only
    cases received : s.alertChan.receive with
    | none => exact keeps
    | some pair =>
      exact keeps.take received (by rw [phase]; rfl) (by rw [phase]; decide) (.inr rfl)
  | drained alert => exact keeps.process (by rw [phase]; rfl) (.inr rfl)
  | returned => exact keeps

theorem Keeps.close (keeps : s.Keeps) : s.close.Keeps := by
  unfold Service.close
  split_ifs with parked
  · have woken : ({ s with worker := .draining } : Service).Keeps :=
      keeps.goOn (by rw [parked]; rfl) (by rw [parked]; decide) rfl nofun
    exact ⟨woken.order, woken.parked, woken.working, woken.returned⟩
  · exact ⟨keeps.order, keeps.parked, keeps.working, keeps.returned⟩

/-! The worker that has returned stays so. -/

theorem returned_queue (returned : s.worker = .returned) (alert : Alert) :
    (s.queue alert).2.worker = .returned := by
  have awake : s.worker ≠ .parked := by rw [returned]; decide
  unfold Service.queue
  rw [if_neg awake]
  cases s.alertChan.trySend alert with
  | none => exact returned
  | some alertChan => exact returned

theorem returned_work (returned : s.worker = .returned) (stopFirst : Bool) :
    (s.work stopFirst).worker = .returned := by
  unfold Service.work
  rw [returned]
  exact returned

theorem returned_close (returned : s.worker = .returned) : s.close.worker = .returned := by
  have awake : s.worker ≠ .parked := by rw [returned]; decide
  unfold Service.close
  rw [if_neg awake]
  exact returned

theorem queue_accepted (s : Service) (alert : Alert) :
    ((s.queue alert).1.isSome ∧ (s.queue alert).2 = s) ∨
      (s.queue alert).1 = none ∧ (s.queue alert).2.accepted = (s.accept alert).accepted := by
  unfold Service.queue
  split_ifs with parked
  · exact .inr ⟨rfl, rfl⟩
  · cases sent : s.alertChan.trySend alert with
    | none => exact .inl ⟨rfl, rfl⟩
    | some alertChan => exact .inr ⟨rfl, rfl⟩

theorem accepted_work (s : Service) (stopFirst : Bool) : (s.work stopFirst).accepted = s.accepted := by
  unfold Service.work
  split
  · split
    · rfl
    · split_ifs <;> rfl
  · rfl
  · rfl
  · split <;> rfl
  · rfl
  · rfl
  · rfl

end Service

/-! ## A whole run -/

structure Sound (w : Threads Service Goroutine) : Prop where
  keeps : w.shared.Keeps
  /-- The alerts accepted are those of the calls that returned nil. -/
  sent : (w.calls.filterMap Goroutine.accepted).Perm (w.shared.accepted.map Accepted.alert)
  stopped : ∀ closed, .stop closed true ∈ w.calls → w.shared.worker = .returned

theorem sound_start (bufferSize : Nat) (alerts : List Alert) : Sound (start bufferSize alerts) where
  keeps := ⟨rfl, nofun, fun _ => rfl, nofun⟩
  sent := by
    have waiting : ∀ g ∈ (start bufferSize alerts).calls, g.accepted = none := by
      simp [start, Goroutine.accepted]
    rw [List.filterMap_eq_nil_iff.mpr waiting]
    exact .nil
  stopped := by simp [start]

/-- What a step of one goroutine does to the shared state. -/
theorem Goroutine.advance_keeps (g : Goroutine) (turn : Turn) {s : Service} (keeps : s.Keeps) :
    (g.advance turn s).2.Keeps := by
  cases g with
  | worker => exact keeps.work turn.stopFirst
  | stop closed returned =>
    cases closed with
    | false => exact keeps.close
    | true => cases returned <;> exact keeps
  | send alert => exact keeps.queue _
  | sent alert err => exact keeps

theorem Goroutine.advance_returned (g : Goroutine) (turn : Turn) {s : Service}
    (returned : s.worker = .returned) : (g.advance turn s).2.worker = .returned := by
  cases g with
  | worker => exact Service.returned_work returned turn.stopFirst
  | stop closed stopped =>
    cases closed with
    | false => exact Service.returned_close returned
    | true => cases stopped <;> exact returned
  | send alert => exact Service.returned_queue returned _
  | sent alert err => exact returned

theorem Goroutine.advance_stopped (g : Goroutine) (turn : Turn) {s : Service} {closed : Bool}
    (before : ∀ closed, g = .stop closed true → s.worker = .returned)
    (after : (g.advance turn s).1 = .stop closed true) : (g.advance turn s).2.worker = .returned := by
  cases g with
  | worker => cases after
  | stop began returned =>
    cases returned with
    | true => exact advance_returned _ turn (before began rfl)
    | false =>
      cases began with
      | false => cases after
      | true =>
        have waits : decide (s.worker = .returned) = true := (Goroutine.stop.inj after).2
        exact of_decide_eq_true waits
  | send alert => cases after
  | sent alert err => cases after

/-- A goroutine accepts an alert exactly when its call of `Send` returns nil. -/
theorem Goroutine.advance_accepted (g : Goroutine) (turn : Turn) (s : Service) :
    ((g.advance turn s).1.accepted = g.accepted ∧ (g.advance turn s).2.accepted = s.accepted) ∨
      g.accepted = none ∧ ∃ alert, (g.advance turn s).1.accepted = some alert ∧
        (g.advance turn s).2.accepted.map Accepted.alert =
          s.accepted.map Accepted.alert ++ [alert] := by
  cases g with
  | worker => exact .inl ⟨rfl, s.accepted_work turn.stopFirst⟩
  | stop closed returned =>
    cases closed with
    | false => exact .inl ⟨rfl, rfl⟩
    | true => cases returned <;> exact .inl ⟨rfl, rfl⟩
  | send alert =>
    dsimp only [Goroutine.advance]
    generalize alert.withDefaults turn.nanos turn.now = alert
    rcases s.queue_accepted alert with ⟨fails, same⟩ | ⟨succeeds, accepts⟩
    · obtain ⟨err, fails⟩ := Option.isSome_iff_exists.mp fails
      refine .inl ⟨?_, ?_⟩
      · rw [fails]
        rfl
      · rw [same]
    · refine .inr ⟨rfl, alert, ?_, ?_⟩
      · rw [succeeds]
        rfl
      · rw [accepts]
        exact Service.accepted_accept alert
  | sent alert err => exact .inl ⟨rfl, rfl⟩

theorem Sound.step {w : Threads Service Goroutine} {i : Nat} {g : Goroutine} (turn : Turn)
    (sound : Sound w) (given : w.calls[i]? = some g) :
    Sound ⟨(g.advance turn w.shared).2, w.calls.set i (g.advance turn w.shared).1⟩ := by
  refine ⟨g.advance_keeps turn sound.keeps, ?_, ?_⟩
  · rcases g.advance_accepted turn w.shared with ⟨same, none⟩ | ⟨before, alert, after, accepts⟩
    · dsimp only
      rw [filterMap_set_eq given same, none]
      exact sound.sent
    · dsimp only
      rw [accepts]
      exact (filterMap_set_perm given before after).trans (sound.sent.append_right [alert])
  · intro closed member
    rcases List.mem_or_eq_of_mem_set member with old | own
    · exact g.advance_returned turn (sound.stopped closed old)
    · exact g.advance_stopped turn (fun closed own => sound.stopped closed (own ▸ List.mem_of_getElem? given))
        own.symm

theorem sound_run (bufferSize : Nat) (alerts : List Alert) (turns : List (Nat × Turn)) :
    Sound ((start bufferSize alerts).run Goroutine.advance turns) :=
  Threads.run_invariant Sound (fun _ _ _ turn sound given => sound.step turn given)
    (sound_start bufferSize alerts) turns

/-- When `Stop` has returned, exactly the alerts accepted while the worker ran were processed; what
came later is in the queue. -/
theorem processed_inTime {bufferSize : Nat} {alerts : List Alert} {turns : List (Nat × Turn)}
    (stopped : Goroutine.stop true true ∈
      ((start bufferSize alerts).run Goroutine.advance turns).calls) :
    ((start bufferSize alerts).run Goroutine.advance turns).shared.processed =
      ((start bufferSize alerts).run Goroutine.advance turns).shared.inTime := by
  have sound := sound_run bufferSize alerts turns
  exact sound.keeps.returned (sound.stopped true stopped)

/-- Accepted alerts are delivered, if none is accepted after the worker has returned. -/
theorem accepted_processed (bufferSize : Nat) (alerts : List Alert) (turns : List (Nat × Turn))
    (stopped : Goroutine.stop true true ∈
      ((start bufferSize alerts).run Goroutine.advance turns).calls)
    (early : ∀ e ∈ ((start bufferSize alerts).run Goroutine.advance turns).shared.accepted,
      e.late = false) :
    let w := (start bufferSize alerts).run Goroutine.advance turns
    w.shared.processed = w.shared.accepted.map Accepted.alert ∧
      (w.calls.filterMap Goroutine.accepted).Perm w.shared.processed := by
  have sound := sound_run bufferSize alerts turns
  have order := processed_inTime stopped
  rw [Service.inTime, List.filter_eq_self.mpr (by simpa using early)] at order
  refine ⟨order, ?_⟩
  rw [order]
  exact sound.sent

def down : Alert := ⟨str "a1", some 7, str "probe", str "down"⟩

def full : Alert := ⟨str "a2", some 8, str "probe", str "full"⟩

/-- One alert is handed to the worker and one is found in the buffer after `Stop` was called. -/
def twoTurns : List (Nat × Turn) :=
  [(2, {}), (0, {}), (3, {}), (1, {}), (0, {}), (0, {}), (0, {}), (0, {}), (0, {}), (1, {})]

theorem accepted_processed_down :
    ((start 1 [down, full]).run Goroutine.advance twoTurns).shared.processed = [down, full] :=
  (accepted_processed 1 [down, full] twoTurns (by decide +kernel) (by decide +kernel)).1.trans
    (by decide +kernel)

/-- The worker finds the queue empty and returns, and with it `Stop`; a `Send` that was on its way
still finds room in the buffer, returns nil, and nobody is left to process its alert. -/
theorem accepted_left :
    let w := (start 1 [down]).run Goroutine.advance
      [(1, {}), (0, {}), (0, {}), (1, {}), (2, {})]
    w.calls = [.worker, .stop true true, .sent down none] ∧ w.shared.processed = [] ∧
      w.shared.worker = .returned ∧ w.shared.alertChan.buffer = [down] := by
  decide +kernel

end Obsidian.App.Alerts
