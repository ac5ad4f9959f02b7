import Mathlib.Tactic.Common

namespace AppleBce

/-- `struct bce_vhci_message`. -/
structure BceVhciMessage where
  cmd : BitVec 16
  status : BitVec 16
  param1 : BitVec 32
  param2 : BitVec 64
  deriving DecidableEq, Repr

/-- `enum bce_vhci_message_status`. The device may send any other 16-bit value as well. -/
inductive BceVhciMessageStatus
  | success
  | error
  | usbPipeStall
  | abort
  | badArgument
  | overrun
  | internalError
  | noPower
  | unsupported
  deriving DecidableEq, Repr

def BceVhciMessageStatus.code : BceVhciMessageStatus → BitVec 16
  | .success => 1
  | .error => 2
  | .usbPipeStall => 3
  | .abort => 4
  | .badArgument => 5
  | .overrun => 6
  | .internalError => 7
  | .noPower => 8
  | .unsupported => 9

/-- The message codes of `enum bce_vhci_command` this development speaks about. -/
inductive BceVhciCommand
  | portStatus
  | endpointRequestState
  | endpointSetState
  | endpointReset
  | transferRequest
  | controlTransferStatus
  deriving DecidableEq, Repr

def BceVhciCommand.code : BceVhciCommand → BitVec 16
  | .portStatus => 0x16
  | .endpointSetState => 0x42
  | .endpointRequestState => 0x43
  | .endpointReset => 0x44
  | .transferRequest => 0x1000
  | .controlTransferStatus => 0x1005

/-- The error numbers the driver returns. -/
inductive Errno
  | noent
  | io
  | again
  | nomem
  | inval
  | nodev
  | pipe
  | connreset
  | shutdown
  | timedout
  | inprogress
  | remoteio
  | overflow
  | idrm
  | exist
  | opnotsupp
  deriving DecidableEq, Repr

/-- The negated error number. -/
def Errno.neg : Errno → Int
  | .noent => -2
  | .io => -5
  | .again => -11
  | .nomem => -12
  | .exist => -17
  | .nodev => -19
  | .inval => -22
  | .pipe => -32
  | .idrm => -43
  | .overflow => -75
  | .opnotsupp => -95
  | .connreset => -104
  | .shutdown => -108
  | .timedout => -110
  | .inprogress => -115
  | .remoteio => -121

theorem Errno.neg_ne_zero (e : Errno) : e.neg ≠ 0 := by
  cases e <;> decide

namespace BceVhciMessage

/-- The bit that makes a message the cancellation of an earlier one. -/
def cancelBit : BitVec 16 := 0x4000

/-- The bit that makes a message the reply to an earlier one. -/
def replyBit : BitVec 16 := 0x8000

/-- The code a reply answers, `cmd & ~0x8000`. -/
def answeredCmd (m : BceVhciMessage) : BitVec 16 :=
  m.cmd &&& ~~~replyBit

/-- The cancellation of a request. -/
def cancellation (req : BceVhciMessage) : BceVhciMessage :=
  { req with cmd := req.cmd ||| cancelBit }

/-- A reply to a cancellation that names the request names the cancellation as well. -/
theorem cancellation_answered {c : BitVec 16}
    (same : ((c ||| cancelBit) ||| replyBit) &&& ~~~replyBit = c) :
    ((c ||| cancelBit) ||| replyBit) &&& ~~~replyBit = c ||| cancelBit := by
  have bit := congrArg (fun x : BitVec 16 => x.getLsbD 14) same
  simp [cancelBit, replyBit] at bit
  rw [same]
  have off : ∀ i < 16, i ≠ 14 → cancelBit.getLsbD i = false := by
    decide
  apply BitVec.eq_of_getLsbD_eq
  intro i bound
  rw [BitVec.getLsbD_or]
  by_cases here : i = 14
  · rw [here]
    simp [bit]
  · rw [off i bound here, Bool.or_false]

end BceVhciMessage

end AppleBce
