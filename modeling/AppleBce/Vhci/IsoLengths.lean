import AppleBce.Basis.Strides
import AppleBce.Vhci.TransferRun

namespace AppleBce

open Basis

namespace Urb

/-- The lengths of the packets, in bytes. -/
def packetLengths (urb : Urb) : List Nat :=
  urb.isoFrameDesc.map fun packet => packet.length.toNat

/-- What was received of the packets, in bytes. -/
def packetActualLengths (urb : Urb) : List Nat :=
  urb.isoFrameDesc.map fun packet => packet.actualLength.toNat

/-- No packet received more than its length, and together they received what the URB did. -/
def LengthsConserved (urb : Urb) : Prop :=
  List.Forall₂ (· ≤ ·) urb.packetActualLengths urb.packetLengths ∧
    urb.packetActualLengths.sum = urb.actualLength.toNat

/-- The bytes received fit the packets at a stride: the packets hold them all, and each that they
reach is as large as the stride or takes the rest. -/
def FitsStride (urb : Urb) (stride : Nat) : Prop :=
  urb.actualLength.toNat ≤ urb.packetLengths.length * stride ∧
    ∀ i (bound : i < urb.packetLengths.length), i * stride < urb.actualLength.toNat →
      stride ≤ urb.packetLengths[i] ∨ urb.actualLength.toNat - i * stride ≤ urb.packetLengths[i]

instance (urb : Urb) : Decidable urb.LengthsConserved :=
  inferInstanceAs (Decidable (_ ∧ _))

end Urb

namespace BceVhciUrb

/-- `bce_vhci_urb_iso_complete` keeps the lengths of the packets. -/
theorem isoPackets_length (maxp remaining : BitVec 32) (packets : List UsbIsoPacketDescriptor) :
    (isoPackets maxp remaining packets).map (fun packet => packet.length.toNat) =
      packets.map fun packet => packet.length.toNat := by
  induction packets generalizing remaining with
  | nil => rfl
  | cons packet packets ih => rw [isoPackets, List.map_cons, List.map_cons, ih]

/-- It deals the bytes out with the stride of the descriptor. -/
theorem isoPackets_actualLength (maxp remaining : BitVec 32) (packets : List UsbIsoPacketDescriptor) :
    (isoPackets maxp remaining packets).map (fun packet => packet.actualLength.toNat) =
      strides maxp.toNat remaining.toNat packets.length := by
  induction packets generalizing remaining with
  | nil => rfl
  | cons packet packets ih =>
    have taken : (if maxp ≤ remaining then maxp else remaining).toNat = min maxp.toNat remaining.toNat := by
      split <;> rename_i order <;> rw [BitVec.le_def] at order <;> omega
    have left : (remaining - if maxp ≤ remaining then maxp else remaining).toNat =
        remaining.toNat - min maxp.toNat remaining.toNat := by
      rw [BitVec.toNat_sub_of_le, taken]
      rw [BitVec.le_def, taken]
      exact Nat.min_le_right _ _
    rw [isoPackets, List.map_cons, ih, List.length_cons, strides]
    simp only [taken, left]

theorem isoComplete_lengths (vurb : BceVhciUrb) (q : BceVhciTransferQueue) :
    ∃ urb : Urb, (vurb.isoComplete q).givebackUrbList = q.givebackUrbList ++ [urb] ∧
      urb.packetLengths = vurb.urb.packetLengths ∧
      urb.packetActualLengths =
        strides q.endp.maxp.toNat vurb.urb.actualLength.toNat vurb.urb.packetLengths.length ∧
      urb.actualLength = vurb.urb.actualLength := by
  refine ⟨_, rfl, isoPackets_length .., ?_, rfl⟩
  rw [Urb.packetLengths, List.length_map]
  exact isoPackets_actualLength ..

/-- The URB that `bce_vhci_urb_iso_complete` queues for give-back has its lengths conserved exactly
if the bytes it received fit its packets at the stride of the descriptor's `maxp`. -/
theorem iso_lengths_conserved_iff (vurb : BceVhciUrb) (q : BceVhciTransferQueue) :
    ∃ urb : Urb, (vurb.isoComplete q).givebackUrbList = q.givebackUrbList ++ [urb] ∧
      urb.actualLength = vurb.urb.actualLength ∧ urb.packetLengths = vurb.urb.packetLengths ∧
      (urb.LengthsConserved ↔ vurb.urb.FitsStride q.endp.maxp.toNat) := by
  obtain ⟨urb, queued, lengths, actualLengths, actual⟩ := vurb.isoComplete_lengths q
  refine ⟨urb, queued, actual, lengths, ?_⟩
  rw [Urb.LengthsConserved, actualLengths, lengths, actual, strides_le_iff, sum_strides, and_comm]
  refine and_congr_left fun _ => ?_
  exact min_eq_left_iff

end BceVhciUrb

/-- The endpoint of a camera that sends three packets of 1024 bytes in a microframe:
`usb_endpoint_maxp` does not tell how many. -/
def highBandwidthIn : UsbEndpoint := ⟨0x81, .isoc, 1024⟩

/-- An URB of two microframes, all of which was received. -/
def highBandwidthUrb : BceVhciUrb where
  urb := { sampleUrb 1 true with
    transferBufferLength := 6144
    isoFrameDesc := [⟨3072, 0, 0⟩, ⟨3072, 0, 0⟩]
    actualLength := 6144 }
  dir := .fromDevice
  isControl := false

/-- Of the 6144 bytes received the packets account for 2048. -/
theorem high_bandwidth_lengths_lost :
    ¬∀ (vurb : BceVhciUrb) (q : BceVhciTransferQueue), vurb.urb.isoFrameDesc ≠ [] →
      vurb.urb.packetLengths.sum = vurb.urb.transferBufferLength.toNat →
      vurb.urb.actualLength ≤ vurb.urb.transferBufferLength →
      ∀ urb ∈ (vurb.isoComplete q).givebackUrbList.drop q.givebackUrbList.length, urb.LengthsConserved := by
  intro conserved
  let q := (bceVhciCreateTransferQueue highBandwidthIn 1 .fromDevice ⟨true, true, true⟩ []).get rfl
  have all := conserved highBandwidthUrb q (by decide) (by decide) (by decide)
  exact absurd all (by decide)

end AppleBce
