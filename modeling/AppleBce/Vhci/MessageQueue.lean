import AppleBce.Queue.Submission
import AppleBce.Vhci.EventQueues
import Mathlib.Tactic.Common

namespace AppleBce

open Basis

/-- `struct bce_qe_submission`. -/
structure BceQeSubmission where
  length : BitVec 64
  addr : BitVec 64
  seglAddr : BitVec 64
  seglLength : BitVec 64
  deriving DecidableEq, Repr

/-- `bce_set_submission_single`. -/
def bceSetSubmissionSingle (addr size : BitVec 64) : BceQeSubmission :=
  ⟨size, addr, 0, 0⟩

/-- `sizeof(struct bce_vhci_message)`. -/
def bceVhciMessageSize : BitVec 64 := 16

/-- Where `bce_vhci_message_queue_write` is: it has taken the slot, has copied the message there, or
has filled the element. -/
inductive MessageWriteStage
  | taken (sidx : Nat)
  | copied (sidx : Nat)
  | filled

/-- A message queue and the T2 at its other end. `data` is the submission ring, `memory` the coherent
memory by the address of a message, and `doorbell` the tail that the T2 has been told of. The last
fields record the messages given to the T2 and those it has read. -/
structure MessageQueueRun where
  sq : SubmissionRun
  data : Nat → BceQeSubmission
  dmaAddr : BitVec 64
  memory : BitVec 64 → BceVhciMessage
  doorbell : Nat
  writer : Option (BceVhciMessage × MessageWriteStage)
  sent : List BceVhciMessage
  read : List BceVhciMessage

/-- `write` begins a call, under the lock of the queue and with a reservation, and `store` is its
next store. With `fetch` the T2 reads an element and its message, and completes it. -/
inductive MessageQueueStep
  | sq (a : SubmissionStep)
  | write (req : BceVhciMessage)
  | store
  | fetch (status dataSize result : Nat)

/-- The address of the message in a slot. -/
def messageAddr (dmaAddr : BitVec 64) (sidx : Nat) : BitVec 64 :=
  dmaAddr + bceVhciMessageSize * BitVec.ofNat 64 sidx

namespace MessageQueueRun

def start (dmaAddr : BitVec 64) (data : Nat → BceQeSubmission) (memory : BitVec 64 → BceVhciMessage) :
    MessageQueueRun where
  sq := .start vhciEventQueueElCount
  data := data
  dmaAddr := dmaAddr
  memory := memory
  doorbell := 0
  writer := none
  sent := []
  read := []

def writeStep (s : MessageQueueRun) : Option MessageQueueRun :=
  match s.writer with
  | none => none
  | some (req, .taken sidx) =>
    some { s with
      memory := Function.update s.memory (messageAddr s.dmaAddr sidx) req
      writer := some (req, .copied sidx) }
  | some (req, .copied sidx) =>
    some { s with
      data := Function.update s.data sidx (bceSetSubmissionSingle (messageAddr s.dmaAddr sidx) bceVhciMessageSize)
      writer := some (req, .filled) }
  | some (req, .filled) =>
    some { s with doorbell := s.sq.sq.tail, writer := none, sent := s.sent ++ [req] }

def step (s : MessageQueueRun) : MessageQueueStep → Option MessageQueueRun
  | .sq .nextSubmission | .sq (.deviceComplete ..) => none
  | .sq a => (s.sq.step a).map fun sq => { s with sq }
  | .write req =>
    match s.writer with
    | some _ => none
    | none =>
      (s.sq.step .nextSubmission).map fun sq =>
        { s with sq, writer := some (req, .taken s.sq.sq.nextSubmission.1) }
  | .store => s.writeStep
  | .fetch status dataSize result =>
    if s.sq.deviceIndex = s.doorbell then none
    else
      (s.sq.step (.deviceComplete status dataSize result)).map fun sq =>
        { s with sq, read := s.read ++ [s.memory (s.data s.sq.deviceIndex).addr] }

/-- All orders of reservations, of the stores of the writers, of what the T2 does, and of the
interrupt that takes the completions. -/
def machine : Machine MessageQueueRun MessageQueueStep where
  init s := ∃ dmaAddr data memory, s = start dmaAddr data memory
  step := step

variable {s t : MessageQueueRun} {posted : Nat}

theorem messageAddr_inj {dmaAddr : BitVec 64} {i j : Nat} (hi : i < vhciEventQueueElCount)
    (hj : j < vhciEventQueueElCount) (same : messageAddr dmaAddr i = messageAddr dmaAddr j) : i = j := by
  have cancel : bceVhciMessageSize * BitVec.ofNat 64 i = bceVhciMessageSize * BitVec.ofNat 64 j :=
    (BitVec.add_right_inj dmaAddr).mp same
  have values := congrArg BitVec.toNat cancel
  simp only [vhciEventQueueElCount] at hi hj
  simp [bceVhciMessageSize, BitVec.toNat_mul] at values
  omega

/-- What the T2 would read from the elements it has been told of, oldest first. -/
def posts (s : MessageQueueRun) (posted : Nat) : List BceVhciMessage :=
  window vhciEventQueueElCount (fun sidx => s.memory (s.data sidx).addr) s.sq.deviceIndex posted

/-- What a call has done for the slot behind those the T2 has been told of. -/
def Writes (s : MessageQueueRun) (posted : Nat) : Option (BceVhciMessage × MessageWriteStage) → Prop
  | none => s.sq.atDevice = posted
  | some (_, .taken sidx) => s.sq.atDevice = posted + 1 ∧ sidx = (s.sq.deviceIndex + posted) % vhciEventQueueElCount
  | some (req, .copied sidx) =>
    s.sq.atDevice = posted + 1 ∧ sidx = (s.sq.deviceIndex + posted) % vhciEventQueueElCount ∧
      s.memory (messageAddr s.dmaAddr sidx) = req
  | some (req, .filled) =>
    s.sq.atDevice = posted + 1 ∧
      s.memory (messageAddr s.dmaAddr ((s.sq.deviceIndex + posted) % vhciEventQueueElCount)) = req ∧
      s.data ((s.sq.deviceIndex + posted) % vhciEventQueueElCount) =
        bceSetSubmissionSingle
          (messageAddr s.dmaAddr ((s.sq.deviceIndex + posted) % vhciEventQueueElCount)) bceVhciMessageSize

/-- The T2 has been told of `posted` elements that it has not read yet. Each has the address of its own
slot, and what is there is what was sent, in order. -/
structure Carries (s : MessageQueueRun) (posted : Nat) : Prop where
  ok : s.sq.Ok vhciEventQueueElCount
  doorbell : s.doorbell = (s.sq.deviceIndex + posted) % vhciEventQueueElCount
  writes : s.Writes posted s.writer
  elements : ∀ k < posted, s.data ((s.sq.deviceIndex + k) % vhciEventQueueElCount) =
    bceSetSubmissionSingle
      (messageAddr s.dmaAddr ((s.sq.deviceIndex + k) % vhciEventQueueElCount)) bceVhciMessageSize
  sent : s.sent = s.read ++ s.posts posted

theorem Writes.atDevice {writer : Option (BceVhciMessage × MessageWriteStage)} (writes : s.Writes posted writer) :
    s.sq.atDevice = posted ∨ s.sq.atDevice = posted + 1 := by
  unfold Writes at writes
  split at writes
  next => exact Or.inl writes
  next => exact Or.inr writes.1
  next => exact Or.inr writes.1
  next => exact Or.inr writes.1

theorem ok_device {s : SubmissionRun} {n : Nat} (ok : s.Ok n) :
    s.atDevice < n ∧ s.deviceIndex < n ∧ s.sq.tail = (s.deviceIndex + s.atDevice) % n := by
  have count := ok.length_lt
  have phases := ok.phases
  refine ⟨by omega, ?_, ?_⟩
  · rw [ok.deviceIndex]
    exact Nat.mod_lt _ (by omega)
  · rw [ok.deviceIndex, ok.tail, Nat.mod_add_mod]
    congr 1
    omega

/-- The calls of the host and the interrupt do not change what is at the device. -/
theorem sq_step_device {s t : SubmissionRun} {a : SubmissionStep} (run : s.step a = some t)
    (next : a ≠ .nextSubmission) (complete : ∀ status dataSize result, a ≠ .deviceComplete status dataSize result) :
    t.deviceIndex = s.deviceIndex ∧ t.atDevice = s.atDevice := by
  cases a with
  | nextSubmission => exact absurd rfl next
  | deviceComplete status dataSize result => exact absurd rfl (complete status dataSize result)
  | reserve | nextCompletion =>
    obtain ⟨taken, -, rfl⟩ := Option.map_eq_some_iff.mp run
    exact ⟨rfl, rfl⟩
  | cancelReservation | notify =>
    obtain ⟨-, run⟩ := Option.ite_none_right_eq_some.mp run
    cases Option.some.inj run
    exact ⟨rfl, rfl⟩
  | harvest =>
    simp only [SubmissionRun.step] at run
    split at run
    · cases run
    · split at run
      · cases Option.some.inj run
        exact ⟨rfl, rfl⟩
      · cases Option.some.inj run
        exact ⟨rfl, rfl⟩

theorem Carries.sq {sq : SubmissionRun} (carries : s.Carries posted) (ok : sq.Ok vhciEventQueueElCount)
    (index : sq.deviceIndex = s.sq.deviceIndex) (count : sq.atDevice = s.sq.atDevice) :
    Carries { s with sq } posted where
  ok := ok
  doorbell := by simpa only [index] using carries.doorbell
  writes := by
    have writes := carries.writes
    unfold Writes at writes ⊢
    simpa only [index, count] using writes
  elements := by simpa only [index] using carries.elements
  sent := by simpa only [posts, index] using carries.sent

/-- A store to the slot behind the posted ones. -/
theorem Carries.store {data : Nat → BceQeSubmission} {memory : BitVec 64 → BceVhciMessage}
    {writer : Option (BceVhciMessage × MessageWriteStage)} (carries : s.Carries posted)
    (kept : ∀ k < posted, data ((s.sq.deviceIndex + k) % vhciEventQueueElCount) =
      s.data ((s.sq.deviceIndex + k) % vhciEventQueueElCount))
    (same : ∀ k < posted, memory (messageAddr s.dmaAddr ((s.sq.deviceIndex + k) % vhciEventQueueElCount)) =
      s.memory (messageAddr s.dmaAddr ((s.sq.deviceIndex + k) % vhciEventQueueElCount)))
    (writes : Writes { s with data, memory, writer } posted writer) :
    Carries { s with data, memory, writer } posted where
  ok := carries.ok
  doorbell := carries.doorbell
  writes := writes
  elements k before := (kept k before).trans (carries.elements k before)
  sent := by
    rw [carries.sent]
    congr 1
    refine window_congr fun k before => ?_
    simp only [kept k before, carries.elements k before]
    exact (same k before).symm

theorem Carries.posted_lt (carries : s.Carries posted) (busy : s.writer ≠ none) :
    posted + 1 < vhciEventQueueElCount := by
  have bound := (ok_device carries.ok).1
  have writes := carries.writes
  unfold Writes at writes
  split at writes
  next idle => exact absurd idle busy
  next => omega
  next => omega
  next => omega

theorem Carries.writeStep (carries : s.Carries posted) (run : s.writeStep = some t) :
    ∃ posted, t.Carries posted := by
  have writes := carries.writes
  unfold MessageQueueRun.writeStep at run
  split at run
  case h_1 => cases run
  case h_2 req sidx writer =>
    cases Option.some.inj run
    have room := carries.posted_lt (by simp [writer])
    rw [writer] at writes
    obtain ⟨count, rfl⟩ := writes
    refine ⟨posted, carries.store (fun _ _ => rfl) ?_ ⟨count, rfl, Function.update_self ..⟩⟩
    intro k before
    refine Function.update_of_ne ?_ ..
    intro same
    have index := messageAddr_inj (Nat.mod_lt _ (by decide)) (Nat.mod_lt _ (by decide)) same
    exact ring_index_ne (by omega) (by omega) (by omega) index
  case h_3 req sidx writer =>
    cases Option.some.inj run
    have room := carries.posted_lt (by simp [writer])
    rw [writer] at writes
    obtain ⟨count, rfl, copied⟩ := writes
    refine ⟨posted, carries.store ?_ (fun _ _ => rfl) ⟨count, copied, Function.update_self ..⟩⟩
    intro k before
    exact Function.update_of_ne (ring_index_ne (by omega) (by omega) (by omega)) ..
  case h_4 req writer =>
    cases Option.some.inj run
    rw [writer] at writes
    obtain ⟨count, copied, filled⟩ := writes
    have tail := (ok_device carries.ok).2.2
    refine ⟨posted + 1, carries.ok, by rw [tail, count], count, ?_, ?_⟩
    · intro k before
      obtain earlier | rfl := Nat.lt_succ_iff_lt_or_eq.mp before
      · exact carries.elements k earlier
      · exact filled
    · rw [carries.sent, List.append_assoc]
      simp only [posts, window_succ_last, filled, bceSetSubmissionSingle, copied]

theorem Carries.write {req : BceVhciMessage} {sq : SubmissionRun} (carries : s.Carries posted)
    (idle : s.writer = none) (run : s.sq.step .nextSubmission = some sq) :
    Carries { s with sq, writer := some (req, .taken s.sq.sq.nextSubmission.1) } posted := by
  have ok := carries.ok.step run
  have tail := (ok_device carries.ok).2.2
  have writes := carries.writes
  rw [idle] at writes
  obtain ⟨-, run⟩ := Option.ite_none_right_eq_some.mp run
  cases Option.some.inj run
  refine ⟨ok, carries.doorbell, ⟨by rw [writes], ?_⟩, carries.elements, carries.sent⟩
  rw [BceQueueSq.nextSubmission, tail, writes]

theorem Carries.fetch {status dataSize result : Nat} {sq : SubmissionRun} (carries : s.Carries posted)
    (told : s.sq.deviceIndex ≠ s.doorbell) (run : s.sq.step (.deviceComplete status dataSize result) = some sq) :
    ∃ posted, Carries { s with sq, read := s.read ++ [s.memory (s.data s.sq.deviceIndex).addr] } posted := by
  have ok := carries.ok.step run
  obtain ⟨-, inside, -⟩ := ok_device carries.ok
  have doorbell := carries.doorbell
  have writes := carries.writes
  obtain ⟨-, run⟩ := Option.ite_none_right_eq_some.mp run
  cases Option.some.inj run
  cases posted with
  | zero =>
    rw [Nat.add_zero, Nat.mod_eq_of_lt inside] at doorbell
    exact absurd doorbell.symm told
  | succ posted =>
    have behind (k : Nat) : ((s.sq.deviceIndex + 1) % vhciEventQueueElCount + k) % vhciEventQueueElCount =
        (s.sq.deviceIndex + (k + 1)) % vhciEventQueueElCount := by
      rw [Nat.mod_add_mod]
      congr 1
      omega
    have size := carries.ok.elCount
    refine ⟨posted, ok, ?_, ?_, ?_, ?_⟩
    · simp only [size, behind, doorbell]
    · unfold Writes at writes ⊢
      simp only [size, behind]
      split at writes
      next => omega
      next => exact ⟨by omega, writes.2⟩
      next => exact ⟨by omega, writes.2⟩
      next => exact ⟨by omega, writes.2⟩
    · intro k before
      simp only [size, behind]
      exact carries.elements (k + 1) (by omega)
    · rw [carries.sent, List.append_assoc]
      congr 1
      simp only [posts, size, window_mod, window_succ, Nat.mod_eq_of_lt inside, List.singleton_append]

theorem start_carries (dmaAddr : BitVec 64) (data : Nat → BceQeSubmission) (memory : BitVec 64 → BceVhciMessage) :
    (start dmaAddr data memory).Carries 0 where
  ok := SubmissionRun.ok_start (by decide)
  doorbell := rfl
  writes := rfl
  elements _ before := absurd before (Nat.not_lt_zero _)
  sent := rfl

theorem Carries.step {label : MessageQueueStep} (carries : s.Carries posted) (run : s.step label = some t) :
    ∃ posted, t.Carries posted := by
  cases label with
  | sq a =>
    unfold MessageQueueRun.step at run
    split at run
    next => cases run
    next => cases run
    next next complete same =>
      cases same
      obtain ⟨sq, ran, rfl⟩ := Option.map_eq_some_iff.mp run
      obtain ⟨index, count⟩ := sq_step_device ran (by simpa using next) (by simpa using complete)
      exact ⟨posted, carries.sq (carries.ok.step ran) index count⟩
    next same => cases same
    next same => cases same
    next same => cases same
  | write req =>
    simp only [MessageQueueRun.step] at run
    split at run
    next => cases run
    next idle =>
      obtain ⟨sq, ran, rfl⟩ := Option.map_eq_some_iff.mp run
      exact ⟨posted, carries.write idle ran⟩
  | store => exact carries.writeStep run
  | fetch status dataSize result =>
    obtain ⟨told, run⟩ := Option.ite_none_left_eq_some.mp run
    obtain ⟨sq, ran, rfl⟩ := Option.map_eq_some_iff.mp run
    exact carries.fetch told ran

/-- Over every order of reservations, the stores of the writers, the reads of the T2 and the interrupt:
what the T2 has read are the first of the messages sent, in order, each once and as the caller gave
it. The messages behind them are in the elements that the T2 has been told of, in the same order, and
every element has the size of a message. -/
theorem messages_in_order (reach : machine.Reachable s) : ∃ posted < vhciEventQueueElCount,
    s.doorbell = (s.sq.deviceIndex + posted) % vhciEventQueueElCount ∧
    s.sent = s.read ++ s.posts posted ∧
    ∀ sidx ∈ slots vhciEventQueueElCount s.sq.deviceIndex posted, (s.data sidx).length = bceVhciMessageSize := by
  obtain ⟨posted, carries⟩ : ∃ posted, s.Carries posted := by
    refine Machine.Reachable.invariant (I := fun s => ∃ posted, s.Carries posted) ?_ ?_ reach
    · rintro _ ⟨dmaAddr, data, memory, rfl⟩
      exact ⟨0, start_carries dmaAddr data memory⟩
    · rintro s label t ⟨posted, carries⟩ run
      exact carries.step run
  have bound := (ok_device carries.ok).1
  have fits := carries.writes.atDevice
  refine ⟨posted, by omega, carries.doorbell, carries.sent, ?_⟩
  intro sidx member
  obtain ⟨k, before, rfl⟩ := mem_window.mp member
  rw [id_eq, carries.elements k before]
  rfl

/-- The T2 reads the first message while the second one is copied. -/
theorem messages_in_order_two : ∃ s posted, machine.Reachable s ∧
    s.read = [⟨0x10, 0, 1, 0⟩] ∧ s.sent = [⟨0x10, 0, 1, 0⟩, ⟨0x20, 0, 2, 0⟩] ∧
    s.sent = s.read ++ s.posts posted := by
  obtain ⟨s, ran, read, sent⟩ : ∃ s, machine.run (start 0x8000 (fun _ => ⟨0, 0, 0, 0⟩) fun _ => ⟨0, 0, 0, 0⟩)
      [.sq .reserve, .sq .reserve, .write ⟨0x10, 0, 1, 0⟩, .store, .store, .store, .write ⟨0x20, 0, 2, 0⟩, .store,
        .fetch 0 0 0, .store, .store] = some s ∧ s.read = [⟨0x10, 0, 1, 0⟩] ∧
      s.sent = [⟨0x10, 0, 1, 0⟩, ⟨0x20, 0, 2, 0⟩] :=
    ⟨_, rfl, rfl, rfl⟩
  have reach : machine.Reachable s := Machine.Reachable.of_run (.start ⟨_, _, _, rfl⟩) _ ran
  obtain ⟨posted, -, -, whole, -⟩ := messages_in_order reach
  exact ⟨s, posted, reach, read, sent, whole⟩

end MessageQueueRun

end AppleBce
