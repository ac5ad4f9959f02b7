import AppleBce.Mailbox.Mailbox
import Mathlib.Data.List.Nodup
import Mathlib.Data.List.Perm.Basic

namespace AppleBce

open Basis

/-- A buffer from `dma_alloc_coherent`, which is named by the number of buffers given out before. -/
structure SaveBuffer where
  dmaPtr : Nat
  dmaAddr : BitVec 64
  size : BitVec 64
  deriving DecidableEq, Repr

def pageSize : BitVec 64 := 4096

def pciVendorIdApple : BitVec 16 := 0x106b

/-- The value of a save or restore message. -/
def SaveBuffer.value (buffer : SaveBuffer) : BitVec 64 :=
  (buffer.dmaAddr &&& ~~~0xfff) ||| (buffer.size / 4096)

def SaveBuffer.saveMessage (buffer : SaveBuffer) : BitVec 64 :=
  bceMbMsg .saveStateAndSleep buffer.value

def SaveBuffer.restoreMessage (buffer : SaveBuffer) : BitVec 64 :=
  bceMbMsg .restoreStateAndWake buffer.value

inductive PmCall
  | suspend
  | resume
  deriving DecidableEq, Repr

/-- Where the running call is: before an allocation, in the mailbox send that follows it, in the
send of `BCE_MB_SLEEP_NO_STATE`, before a read of the vendor id, or in the send of a resume. -/
inductive PmStage
  | idle
  | saveAlloc (attempt : Nat) (size : BitVec 64)
  | saveSend (attempt : Nat) (buffer : SaveBuffer)
  | sleepSend
  | linkPoll (i : Nat)
  | restoreSend
  deriving DecidableEq, Repr

/-- The state behind `apple_bce_suspend` and `apple_bce_resume`, which do not run at a time. The
last fields record the buffers given out and freed, where the last successful suspend saved the
state of the T2, and the call that returned last. -/
structure PmRun where
  savedDataDmaAddr : BitVec 64
  savedDataDmaPtr : Option Nat
  savedDataDmaSize : BitVec 64
  timestampStopped : Bool
  irqDisabled : Nat
  stage : PmStage
  allocated : List SaveBuffer
  freed : List SaveBuffer
  lastSaved : Option SaveBuffer
  last : Option (PmCall × Except Errno Unit)

/-- The calls, what the allocator gives, the vendor ids read, and how each mailbox send ends. -/
inductive PmStep
  | suspend
  | alloc (dmaAddr : Option (BitVec 64))
  | resume
  | poll (vid : BitVec 16)
  | sent (outcome : Except Errno (BitVec 64))
  deriving DecidableEq

namespace PmRun

def start : PmRun where
  savedDataDmaAddr := 0
  savedDataDmaPtr := none
  savedDataDmaSize := 0
  timestampStopped := false
  irqDisabled := 0
  stage := .idle
  allocated := []
  freed := []
  lastSaved := none
  last := none

/-- The buffer in `saved_data_dma_ptr`, with the address and the size kept beside it. -/
def recorded (s : PmRun) : Option SaveBuffer :=
  s.savedDataDmaPtr.map fun ptr => ⟨ptr, s.savedDataDmaAddr, s.savedDataDmaSize⟩

/-- The buffer the running suspend holds in its local variables. -/
def inHand (s : PmRun) : Option SaveBuffer :=
  match s.stage with
  | .saveSend _ buffer => some buffer
  | _ => none

/-- The message of the mailbox send that runs. -/
def outgoing (s : PmRun) : Option (BitVec 64) :=
  match s.stage with
  | .saveSend _ buffer => some buffer.saveMessage
  | .sleepSend => some (bceMbMsg .sleepNoState 0)
  | .restoreSend =>
    match s.recorded with
    | some buffer => some buffer.restoreMessage
    | none => some (bceMbMsg .restoreNoState 0)
  | _ => none

/-- `dma_free_coherent`. -/
def free (s : PmRun) (buffer : SaveBuffer) : PmRun :=
  { s with freed := s.freed ++ [buffer] }

/-- `apple_bce_suspend` after a failed `bce_save_state_and_sleep`. -/
def suspendFails (s : PmRun) (status : Errno) : PmRun :=
  { s with stage := .idle, timestampStopped := false, last := some (.suspend, .error status) }

/-- `apple_bce_suspend` after a successful one. -/
def suspendSucceeds (s : PmRun) (saved : Option SaveBuffer) : PmRun :=
  { s with
    stage := .idle
    irqDisabled := s.irqDisabled + 1
    lastSaved := saved
    last := some (.suspend, .ok ()) }

/-- `bce_save_state_and_sleep` from the return of its mailbox send to the next attempt. -/
def saveSent (s : PmRun) (attempt : Nat) (buffer : SaveBuffer) :
    Except Errno (BitVec 64) → PmRun
  | .error status => (s.free buffer).suspendFails status
  | .ok resp =>
    if bceMbType resp = BceMessageType.saveRestoreStateComplete.code then
      { s with
        savedDataDmaAddr := buffer.dmaAddr
        savedDataDmaPtr := some buffer.dmaPtr
        savedDataDmaSize := buffer.size }.suspendSucceeds (some buffer)
    else if bceMbType resp = BceMessageType.saveStateAndSleepFailure.code then
      let size := (bceMbValue resp + 0x10ff) &&& ~~~0xfff
      { s.free buffer with
        stage := if attempt + 1 < 5 then .saveAlloc (attempt + 1) size else .sleepSend }
    else (s.free buffer).suspendFails .inval

/-- `apple_bce_resume` after `bce_restore_state_and_wake`. -/
def resumeReturns (s : PmRun) (status : Except Errno Unit) : PmRun :=
  { s with
    stage := .idle
    timestampStopped := s.timestampStopped && !status.isOk
    irqDisabled := s.irqDisabled - 1
    last := some (.resume, status) }

/-- The reply to a restore has the type that is asked for. -/
def restoreStatus (expected : BceMessageType) : Except Errno (BitVec 64) → Except Errno Unit
  | .error status => .error status
  | .ok resp => if bceMbType resp = expected.code then .ok () else .error .inval

/-- `bce_restore_state_and_wake` after its mailbox send, which frees a recorded buffer either way. -/
def restoreSent (s : PmRun) (outcome : Except Errno (BitVec 64)) : PmRun :=
  match s.recorded with
  | none => s.resumeReturns (restoreStatus .restoreNoState outcome)
  | some buffer =>
    { s.free buffer with savedDataDmaPtr := none }.resumeReturns
      (restoreStatus .saveRestoreStateComplete outcome)

def step (s : PmRun) : PmStep → Option PmRun
  | .suspend =>
    if s.stage = .idle then some { s with timestampStopped := true, stage := .saveAlloc 0 pageSize }
    else none
  | .alloc dmaAddr =>
    match s.stage with
    | .saveAlloc attempt size =>
      match dmaAddr with
      -- the loop is left with a null pointer and the status 0
      | none => some { s with stage := .sleepSend }
      | some addr =>
        let buffer : SaveBuffer := ⟨s.allocated.length, addr, size⟩
        let held := { s with allocated := s.allocated ++ [buffer] }
        if addr.umod 4096 ≠ 0 then some ((held.free buffer).suspendFails .inval)
        else some { held with stage := .saveSend attempt buffer }
    | _ => none
  | .resume => if s.stage = .idle then some { s with stage := .linkPoll 0 } else none
  | .poll vid =>
    match s.stage with
    | .linkPoll i =>
      if vid = pciVendorIdApple then some { s with stage := .restoreSend }
      else if i + 1 < 120 then some { s with stage := .linkPoll (i + 1) }
      else some (s.resumeReturns (.error .nodev))
    | _ => none
  | .sent outcome =>
    match s.stage with
    | .saveSend attempt buffer => some (s.saveSent attempt buffer outcome)
    | .sleepSend =>
      match outcome with
      | .error status => some (s.suspendFails status)
      | .ok _ => some (s.suspendSucceeds none)
    | .restoreSend => some (s.restoreSent outcome)
    | _ => none

/-- All orders of suspends and resumes. -/
def machine : Machine PmRun PmStep where
  init s := s = start
  step := step

/-- The end of the mailbox send makes the running suspend return 0. -/
def endsSuspend (s : PmRun) : Except Errno (BitVec 64) → Bool
  | .error _ => false
  | .ok resp =>
    match s.stage with
    | .saveSend .. => bceMbType resp = BceMessageType.saveRestoreStateComplete.code
    | .sleepSend => true
    | _ => false

/-- No suspend returns 0 while the buffer of an earlier one is still recorded. -/
def SavesUnrecorded (s : PmRun) : PmStep → Prop
  | .sent outcome => s.endsSuspend outcome → s.savedDataDmaPtr = none
  | _ => True

instance (s : PmRun) (a : PmStep) : Decidable (s.SavesUnrecorded a) := by
  cases a <;> unfold SavesUnrecorded <;> infer_instance

variable {s t : PmRun} {a : PmStep}

/-- The steps of the calls, each with where the call is and with what it finds there. -/
inductive Goes (s : PmRun) : PmStep → PmRun → Prop
  | suspends : s.stage = .idle →
      Goes s .suspend { s with timestampStopped := true, stage := .saveAlloc 0 pageSize }
  | unallocated {attempt : Nat} {size : BitVec 64} : s.stage = .saveAlloc attempt size →
      Goes s (.alloc none) { s with stage := .sleepSend }
  | misaligned {attempt : Nat} {size addr : BitVec 64} (buffer : SaveBuffer) :
      s.stage = .saveAlloc attempt size → buffer = ⟨s.allocated.length, addr, size⟩ →
      addr.umod 4096 ≠ 0 →
      Goes s (.alloc (some addr))
        (({ s with allocated := s.allocated ++ [buffer] }.free buffer).suspendFails .inval)
  | allocated {attempt : Nat} {size addr : BitVec 64} (buffer : SaveBuffer) :
      s.stage = .saveAlloc attempt size → buffer = ⟨s.allocated.length, addr, size⟩ →
      addr.umod 4096 = 0 →
      Goes s (.alloc (some addr))
        { s with allocated := s.allocated ++ [buffer], stage := .saveSend attempt buffer }
  | resumes : s.stage = .idle → Goes s .resume { s with stage := .linkPoll 0 }
  | linked {i : Nat} : s.stage = .linkPoll i →
      Goes s (.poll pciVendorIdApple) { s with stage := .restoreSend }
  | polls {i : Nat} {vid : BitVec 16} : s.stage = .linkPoll i → i + 1 < 120 →
      Goes s (.poll vid) { s with stage := .linkPoll (i + 1) }
  | unreached {i : Nat} {vid : BitVec 16} : s.stage = .linkPoll i →
      Goes s (.poll vid) (s.resumeReturns (.error .nodev))
  | saveSent {attempt : Nat} {buffer : SaveBuffer} {outcome : Except Errno (BitVec 64)} :
      s.stage = .saveSend attempt buffer →
      Goes s (.sent outcome) (s.saveSent attempt buffer outcome)
  | sleepFails {status : Errno} : s.stage = .sleepSend →
      Goes s (.sent (.error status)) (s.suspendFails status)
  | sleeps {resp : BitVec 64} : s.stage = .sleepSend →
      Goes s (.sent (.ok resp)) (s.suspendSucceeds none)
  | restoreSent {outcome : Except Errno (BitVec 64)} : s.stage = .restoreSend →
      Goes s (.sent outcome) (s.restoreSent outcome)

theorem alloc_goes {dmaAddr : Option (BitVec 64)} (run : s.step (.alloc dmaAddr) = some t) :
    s.Goes (.alloc dmaAddr) t := by
  simp only [step] at run
  split at run
  next attempt size stage =>
    cases dmaAddr with
    | none =>
      cases Option.some.inj run
      exact .unallocated stage
    | some addr =>
      by_cases aligned : addr.umod 4096 = 0
      · simp only [aligned, ne_eq, not_true_eq_false, if_false] at run
        cases Option.some.inj run
        exact .allocated _ stage rfl aligned
      · simp only [ne_eq, aligned, not_false_eq_true, if_true] at run
        cases Option.some.inj run
        exact .misaligned _ stage rfl aligned
  next => cases run

theorem poll_goes {vid : BitVec 16} (run : s.step (.poll vid) = some t) : s.Goes (.poll vid) t := by
  simp only [step] at run
  split at run
  next i stage =>
    by_cases apple : vid = pciVendorIdApple
    · subst apple
      rw [if_pos rfl] at run
      cases Option.some.inj run
      exact .linked stage
    by_cases again : i + 1 < 120
    · rw [if_neg apple, if_pos again] at run
      cases Option.some.inj run
      exact .polls stage again
    · rw [if_neg apple, if_neg again] at run
      cases Option.some.inj run
      exact .unreached stage
  next => cases run

theorem sent_goes {outcome : Except Errno (BitVec 64)} (run : s.step (.sent outcome) = some t) :
    s.Goes (.sent outcome) t := by
  simp only [step] at run
  split at run
  next attempt buffer stage =>
    cases Option.some.inj run
    exact .saveSent stage
  next stage =>
    cases outcome with
    | error status =>
      cases Option.some.inj run
      exact .sleepFails stage
    | ok resp =>
      cases Option.some.inj run
      exact .sleeps stage
  next stage =>
    cases Option.some.inj run
    exact .restoreSent stage
  next => cases run

theorem step_goes (run : s.step a = some t) : s.Goes a t := by
  cases a with
  | suspend =>
    obtain ⟨stage, run⟩ := Option.ite_none_right_eq_some.mp run
    cases Option.some.inj run
    exact .suspends stage
  | resume =>
    obtain ⟨stage, run⟩ := Option.ite_none_right_eq_some.mp run
    cases Option.some.inj run
    exact .resumes stage
  | alloc dmaAddr => exact alloc_goes run
  | poll vid => exact poll_goes run
  | sent outcome => exact sent_goes run

/-- While a mailbox send runs the calls wait for it. -/
theorem sends_waits {msg : BitVec 64} (sends : s.outgoing = some msg) (run : s.step a = some t) :
    ∃ result, a = .sent result := by
  cases step_goes run with
  | suspends stage | unallocated stage | misaligned buffer stage | allocated buffer stage
  | resumes stage | linked stage | polls stage | unreached stage =>
    simp [outgoing, stage] at sends
  | saveSent | sleepFails | sleeps | restoreSent => exact ⟨_, rfl⟩

/-- A save that completes leaves its buffer recorded. -/
theorem complete_recorded {attempt : Nat} {buffer : SaveBuffer} {resp : BitVec 64}
    (stage : s.stage = .saveSend attempt buffer)
    (complete : bceMbType resp = BceMessageType.saveRestoreStateComplete.code)
    (run : s.step (.sent (.ok resp)) = some t) : t.recorded = some buffer := by
  simp only [step, stage, saveSent, if_pos complete] at run
  cases Option.some.inj run
  rfl

end PmRun

end AppleBce
