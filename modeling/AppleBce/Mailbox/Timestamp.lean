import AppleBce.Basis.Timer
import AppleBce.Mailbox.SaveRestore

namespace AppleBce

open Basis

/-- What the T2 is told of the clock of the host: that it may rely on the times it is sent from now
on, or no longer, and a time. -/
inductive TimestampMessage
  | start (isInitial : Bool)
  | stop
  | sync (bt : Nat)
  deriving DecidableEq, Repr

/-- The values at the offsets 8 and 0 from `REG_TIMESTAMP_BASE`. -/
def TimestampMessage.words : TimestampMessage → BitVec 32 × BitVec 32
  | .start true => (-4, -1)
  | .start false => (-3, -1)
  | .stop => (-2, -1)
  | .sync bt => (BitVec.ofNat 32 bt, BitVec.ofNat 32 (bt >>> 32))

def TimestampMessage.low (m : TimestampMessage) : Nat × BitVec 32 := (8, m.words.1)
def TimestampMessage.high (m : TimestampMessage) : Nat × BitVec 32 := (0, m.words.2)

def TimestampMessage.writes (m : TimestampMessage) : List (Nat × BitVec 32) := [m.low, m.high]

/-- Where `bc_send_timestamp` is: it has read the interval, has read the clock, has written the low
word, or is before it takes `stop_sl`. -/
inductive TimestampCallback
  | begun (interval : Int)
  | stamped (bt : Nat)
  | halfWritten (bt : Nat)
  | sent
  deriving DecidableEq, Repr

/-- Where `bce_timestamp_start` or `bce_timestamp_stop` is: before one of the two writes, before the
store to `stopped`, or before `mod_timer` or `timer_delete_sync`. -/
inductive TimestampCall
  | startLow (isInitial : Bool)
  | startHigh (isInitial : Bool)
  | startAllow
  | startArm
  | stopDeny
  | stopDelete
  | stopLow
  | stopHigh
  deriving DecidableEq, Repr

/-- The driver has called `bce_timestamp_init`, is bound, or has made its last call, in the removal,
the shutdown or the failure of the probe. -/
inductive BceLife
  | initialised
  | bound
  | leaving
  deriving DecidableEq, Repr

/-- The driver and the timer beside it. `writes` are the register writes so far, each with its offset
from `REG_TIMESTAMP_BASE`. -/
structure TimestampRun where
  pm : PmRun
  life : BceLife
  call : Option TimestampCall
  stopped : Bool
  timer : Timer TimestampCallback
  now : Nat
  writes : List (Nat × BitVec 32)

/-- `call` and `callback` are steps of the running call and of the running callback, and `expires`
is the start of a callback, with the interval it reads. -/
inductive TimestampStep
  | probe
  | pm (a : PmStep)
  | leave
  | call
  | expires (interval : Int)
  | callback
  | tick (time : Nat)
  deriving DecidableEq

namespace TimestampRun

def start (now : Nat) : TimestampRun where
  pm := .start
  life := .initialised
  call := none
  stopped := false
  timer := .idle
  now := now
  writes := []

/-- The call that a suspend that failed, or a resume that did not, makes before it returns. -/
def restarts (pm : PmRun) : Option TimestampCall :=
  match pm.stage, pm.last with
  | .idle, some (.suspend, .error _) | .idle, some (.resume, .ok _) => some (.startLow false)
  | _, _ => none

/-- What is suspended is resumed, and nothing else. -/
def inOrder (pm : PmRun) : PmStep → Bool
  | .suspend => pm.last ≠ some (.suspend, .ok ())
  | .resume => pm.last = some (.suspend, .ok ())
  | _ => true

def pmStep (s : TimestampRun) (a : PmStep) : Option TimestampRun :=
  if s.life = .bound ∧ s.call = none ∧ inOrder s.pm a then
    (s.pm.step a).map fun pm =>
      { s with pm, call := if a = .suspend then some .stopDeny else restarts pm }
  else none

def callStep (s : TimestampRun) : Option TimestampRun :=
  match s.call with
  | none => none
  | some (.startLow isInitial) =>
    some { s with
      writes := s.writes ++ [(TimestampMessage.start isInitial).low]
      call := some (.startHigh isInitial) }
  | some (.startHigh isInitial) =>
    some { s with writes := s.writes ++ [(TimestampMessage.start isInitial).high], call := some .startAllow }
  | some .startAllow => some { s with stopped := false, call := some .startArm }
  | some .startArm => some { s with timer := s.timer.arm, call := none }
  | some .stopDeny => some { s with stopped := true, call := some .stopDelete }
  | some .stopDelete => s.timer.deleteSync.map fun timer => { s with timer, call := some .stopLow }
  | some .stopLow => some { s with writes := s.writes ++ [TimestampMessage.stop.low], call := some .stopHigh }
  | some .stopHigh => some { s with writes := s.writes ++ [TimestampMessage.stop.high], call := none }

def callbackStep (s : TimestampRun) : Option TimestampRun :=
  match s.timer.running with
  | none => none
  | some (.begun interval) =>
    some { s with timer := s.timer.goOn (if 0 < interval then .stamped s.now else .sent) }
  | some (.stamped bt) =>
    some { s with
      writes := s.writes ++ [(TimestampMessage.sync bt).low]
      timer := s.timer.goOn (.halfWritten bt) }
  | some (.halfWritten bt) =>
    some { s with writes := s.writes ++ [(TimestampMessage.sync bt).high], timer := s.timer.goOn .sent }
  | some .sent => some { s with timer := (if s.stopped then s.timer else s.timer.arm).finish }

def step (s : TimestampRun) : TimestampStep → Option TimestampRun
  | .probe =>
    if s.life = .initialised then some { s with life := .bound, call := some (.startLow true) } else none
  | .pm a => s.pmStep a
  | .leave =>
    if s.life = .bound ∧ s.call = none ∧ s.pm.stage = .idle then
      some { s with life := .leaving, call := some .stopDeny }
    else none
  | .call => s.callStep
  | .expires interval => (s.timer.expire (.begun interval)).map fun timer => { s with timer }
  | .callback => s.callbackStep
  | .tick time => if s.now ≤ time then some { s with now := time } else none

/-- All orders of the driver's calls and of the expiries of the timer. -/
def machine : Machine TimestampRun TimestampStep where
  init s := ∃ now, s = start now
  step := step

end TimestampRun

end AppleBce
