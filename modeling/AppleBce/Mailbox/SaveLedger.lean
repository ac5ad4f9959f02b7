import AppleBce.Mailbox.SaveRestore

namespace AppleBce

open Basis

/-- What suspends and resumes do with the save buffers, seen from outside. -/
structure SaveLedger where
  allocated : List SaveBuffer
  freed : List SaveBuffer
  recorded : Option SaveBuffer
  inHand : Option SaveBuffer
  lastSaved : Option SaveBuffer

namespace SaveLedger

/-- The intended changes: a suspend takes a buffer, rejects it at once or gives it back, and where
no buffer is recorded it sleeps without state or leaves its buffer recorded; a resume gives the
recorded buffer back. -/
inductive Moves (l : SaveLedger) : SaveLedger → Prop
  | quiet : Moves l l
  | sleeps : l.recorded = none → Moves l { l with lastSaved := none }
  | takes (b : SaveBuffer) : b.dmaPtr = l.allocated.length → l.inHand = none →
      Moves l { l with allocated := l.allocated ++ [b], inHand := some b }
  | rejects (b : SaveBuffer) : b.dmaPtr = l.allocated.length →
      Moves l { l with allocated := l.allocated ++ [b], freed := l.freed ++ [b] }
  | returns (b : SaveBuffer) : l.inHand = some b →
      Moves l { l with freed := l.freed ++ [b], inHand := none }
  | saves (b : SaveBuffer) : l.inHand = some b → l.recorded = none →
      Moves l { l with recorded := some b, inHand := none, lastSaved := some b }
  | restores (b : SaveBuffer) : l.recorded = some b →
      Moves l { l with freed := l.freed ++ [b], recorded := none }

/-- Every buffer was freed once, or is recorded, or is in the hand of the running suspend. -/
structure Balanced (l : SaveLedger) : Prop where
  shared : (l.freed ++ l.recorded.toList ++ l.inHand.toList).Perm l.allocated
  numbered : l.allocated.map SaveBuffer.dmaPtr = List.range l.allocated.length

/-- The recorded buffer is the one the last successful suspend saved to, until it is freed. -/
def Current (l : SaveLedger) : Prop :=
  ∀ b, l.recorded = some b ↔ l.lastSaved = some b ∧ b ∉ l.freed

variable {l m : SaveLedger} {b : SaveBuffer}

theorem Balanced.distinct (balanced : l.Balanced) : l.allocated.Nodup := by
  have numbers : (l.allocated.map SaveBuffer.dmaPtr).Nodup := by
    rw [balanced.numbered]
    exact List.nodup_range
  exact numbers.of_map

theorem Balanced.apart (balanced : l.Balanced) :
    (l.freed ++ l.recorded.toList ++ l.inHand.toList).Nodup :=
  balanced.shared.nodup_iff.mpr balanced.distinct

/-- A number that was not given out yet names none of the buffers. -/
theorem Balanced.new (balanced : l.Balanced) (number : b.dmaPtr = l.allocated.length) :
    b ∉ l.allocated := by
  intro member
  have known : b.dmaPtr ∈ l.allocated.map SaveBuffer.dmaPtr := List.mem_map_of_mem member
  rw [balanced.numbered, List.mem_range] at known
  omega

theorem Balanced.freed_allocated (balanced : l.Balanced) (freed : b ∈ l.freed) :
    b ∈ l.allocated :=
  balanced.shared.mem_iff.mp (by simp [freed])

theorem Balanced.recorded_allocated (balanced : l.Balanced) (recorded : l.recorded = some b) :
    b ∈ l.allocated :=
  balanced.shared.mem_iff.mp (by simp [recorded])

/-- The buffer in hand is neither freed nor recorded. -/
theorem Balanced.inHand_apart (balanced : l.Balanced) (inHand : l.inHand = some b) :
    b ∉ l.freed ∧ l.recorded ≠ some b := by
  have apart := balanced.apart
  rw [inHand, List.nodup_append] at apart
  have differ := apart.2.2
  constructor
  · intro freed
    exact differ b (by simp [freed]) b (by simp) rfl
  · intro recorded
    exact differ b (by simp [recorded]) b (by simp) rfl

/-- One more buffer is given out. -/
theorem numbered_append (balanced : l.Balanced) (number : b.dmaPtr = l.allocated.length) :
    (l.allocated ++ [b]).map SaveBuffer.dmaPtr = List.range (l.allocated ++ [b]).length := by
  rw [List.map_append, balanced.numbered, List.length_append, List.length_singleton,
    List.range_succ, List.map_singleton, number]

theorem Balanced.moves (balanced : l.Balanced) (moves : l.Moves m) :
    m.Balanced := by
  have shared := balanced.shared
  cases moves with
  | quiet => exact balanced
  | sleeps unrecorded => exact ⟨shared, balanced.numbered⟩
  | takes b number free =>
    refine ⟨?_, numbered_append balanced number⟩
    rw [free, Option.toList_none, List.append_nil] at shared
    exact shared.append_right [b]
  | rejects b number =>
    refine ⟨?_, numbered_append balanced number⟩
    have moved : (l.freed ++ [b] ++ l.recorded.toList ++ l.inHand.toList).Perm
        (l.freed ++ l.recorded.toList ++ l.inHand.toList ++ [b]) := by
      simp only [List.append_assoc]
      refine List.Perm.append_left _ ?_
      rw [← List.append_assoc (l.recorded.toList)]
      exact List.perm_append_comm
    exact moved.trans (shared.append_right [b])
  | returns b inHand =>
    refine ⟨?_, balanced.numbered⟩
    rw [inHand] at shared
    have moved : (l.freed ++ [b] ++ l.recorded.toList ++ []).Perm
        (l.freed ++ l.recorded.toList ++ [b]) := by
      simp only [List.append_assoc, List.append_nil]
      exact List.Perm.append_left _ List.perm_append_comm
    exact moved.trans shared
  | saves b inHand unrecorded =>
    refine ⟨?_, balanced.numbered⟩
    rw [inHand, unrecorded] at shared
    simpa using shared
  | restores b recorded =>
    refine ⟨?_, balanced.numbered⟩
    rw [recorded] at shared
    simpa using shared

theorem Current.moves (current : l.Current) (balanced : l.Balanced) (moves : l.Moves m) :
    m.Current := by
  cases moves with
  | quiet => exact current
  | sleeps unrecorded =>
    intro b
    simp [unrecorded]
  | takes b number free => exact current
  | rejects b number =>
    intro other
    have apart : l.lastSaved = some other → other ≠ b := by
      rintro saved rfl
      refine balanced.new number ?_
      by_cases freed : other ∈ l.freed
      · exact balanced.freed_allocated freed
      · exact balanced.recorded_allocated ((current other).mpr ⟨saved, freed⟩)
    have before := current other
    constructor
    · intro recorded
      obtain ⟨saved, kept⟩ := before.mp recorded
      exact ⟨saved, by simp [kept, apart saved]⟩
    · rintro ⟨saved, kept⟩
      exact before.mpr ⟨saved, fun freed => kept (List.mem_append_left _ freed)⟩
  | returns b inHand =>
    intro other
    obtain ⟨unfreed, unrecorded⟩ := balanced.inHand_apart inHand
    have before := current other
    constructor
    · intro recorded
      obtain ⟨saved, kept⟩ := before.mp recorded
      have apart : other ≠ b := by
        rintro rfl
        exact unrecorded recorded
      exact ⟨saved, by simp [kept, apart]⟩
    · rintro ⟨saved, kept⟩
      exact before.mpr ⟨saved, fun freed => kept (List.mem_append_left _ freed)⟩
  | saves b inHand unrecorded =>
    intro other
    have unfreed := (balanced.inHand_apart inHand).1
    constructor
    · intro recorded
      obtain rfl := Option.some.inj recorded
      exact ⟨rfl, unfreed⟩
    · exact fun saved => saved.1
  | restores b recorded =>
    intro other
    have saved := ((current b).mp recorded).1
    constructor
    · exact fun now => by cases now
    · rintro ⟨also, kept⟩
      obtain rfl := Option.some.inj (saved.symm.trans also)
      exact absurd (List.mem_append_right _ (List.mem_singleton_self _)) kept

/-- A recorded buffer leaves the record by being freed. -/
theorem Moves.recorded_leaves (moves : l.Moves m) (recorded : l.recorded = some b)
    (left : m.recorded ≠ some b) : m.recorded = none ∧ m.freed = l.freed ++ [b] := by
  cases moves with
  | saves other inHand unrecorded => exact absurd (unrecorded.symm.trans recorded) (by simp)
  | restores other also =>
    obtain rfl := Option.some.inj (also.symm.trans recorded)
    exact ⟨rfl, rfl⟩
  | quiet | sleeps | takes | rejects | returns => exact absurd recorded left

end SaveLedger

namespace PmRun

variable {s t : PmRun} {a : PmStep} {buffer : SaveBuffer}

def ledger (s : PmRun) : SaveLedger where
  allocated := s.allocated
  freed := s.freed
  recorded := s.recorded
  inHand := s.inHand
  lastSaved := s.lastSaved

theorem recorded_of_ptr (unrecorded : s.savedDataDmaPtr = none) : s.recorded = none := by
  rw [recorded, unrecorded, Option.map_none]

theorem saveSent_moves {attempt : Nat} {outcome : Except Errno (BitVec 64)}
    (stage : s.stage = .saveSend attempt buffer) (spares : s.SavesUnrecorded (.sent outcome)) :
    s.ledger.Moves (s.saveSent attempt buffer outcome).ledger := by
  have inHand : s.ledger.inHand = some buffer := by simp [ledger, PmRun.inHand, stage]
  cases outcome with
  | error status => exact .returns buffer inHand
  | ok resp =>
    by_cases complete : bceMbType resp = BceMessageType.saveRestoreStateComplete.code
    · have unrecorded := spares (by simp [endsSuspend, stage, complete])
      have moved := SaveLedger.Moves.saves buffer inHand (recorded_of_ptr unrecorded)
      simp only [saveSent, if_pos complete]
      exact moved
    by_cases failure : bceMbType resp = BceMessageType.saveStateAndSleepFailure.code
    · have moved := SaveLedger.Moves.returns buffer inHand
      by_cases again : attempt + 1 < 5
      · simp only [saveSent, if_neg complete, if_pos failure, if_pos again]
        exact moved
      · simp only [saveSent, if_neg complete, if_pos failure, if_neg again]
        exact moved
    · have moved := SaveLedger.Moves.returns buffer inHand
      simp only [saveSent, if_neg complete, if_neg failure]
      exact moved

theorem restoreSent_none (outcome : Except Errno (BitVec 64)) (recorded : s.recorded = none) :
    s.restoreSent outcome = s.resumeReturns (restoreStatus .restoreNoState outcome) := by
  rw [restoreSent, recorded]

theorem restoreSent_some (outcome : Except Errno (BitVec 64)) (recorded : s.recorded = some buffer) :
    s.restoreSent outcome = { s.free buffer with savedDataDmaPtr := none }.resumeReturns
      (restoreStatus .saveRestoreStateComplete outcome) := by
  rw [restoreSent, recorded]

/-- A state in which no suspend holds a buffer. -/
theorem ledger_of_free (free : s.inHand = none) :
    s.ledger = ⟨s.allocated, s.freed, s.recorded, none, s.lastSaved⟩ := by
  rw [ledger, free]

theorem restoreSent_moves (stage : s.stage = .restoreSend) (outcome : Except Errno (BitVec 64)) :
    s.ledger.Moves (s.restoreSent outcome).ledger := by
  rw [ledger_of_free (by rw [inHand, stage])]
  obtain recorded | ⟨buffer, recorded⟩ := Option.eq_none_or_eq_some s.recorded
  · rw [restoreSent_none outcome recorded]
    exact .quiet
  · rw [restoreSent_some outcome recorded]
    exact .restores buffer recorded

/-- Under the condition a step of suspend or resume is one of the intended changes. -/
theorem step_moves (spares : s.SavesUnrecorded a) (run : s.step a = some t) :
    s.ledger.Moves t.ledger := by
  cases step_goes run with
  | saveSent stage => exact saveSent_moves stage spares
  | restoreSent stage => exact restoreSent_moves stage _
  | misaligned buffer stage same misaligned =>
    rw [ledger_of_free (by rw [inHand, stage])]
    exact .rejects buffer (by rw [same])
  | allocated buffer stage same aligned =>
    rw [ledger_of_free (by rw [inHand, stage])]
    exact .takes buffer (by rw [same]) rfl
  | sleeps stage =>
    have unrecorded := spares (by simp [endsSuspend, stage])
    rw [ledger_of_free (by rw [inHand, stage])]
    exact .sleeps (recorded_of_ptr unrecorded)
  | suspends stage | unallocated stage | resumes stage | linked stage | polls stage
  | unreached stage | sleepFails stage =>
    rw [ledger_of_free (by rw [inHand, stage])]
    exact .quiet

theorem ledger_under (reach : machine.ReachableUnder SavesUnrecorded s) :
    s.ledger.Balanced ∧ s.ledger.Current := by
  refine reach.invariant (I := fun s => s.ledger.Balanced ∧ s.ledger.Current) ?_ ?_
  · rintro _ rfl
    refine ⟨⟨.refl _, rfl⟩, ?_⟩
    intro b
    simp [ledger, start, recorded]
  · rintro s a t ⟨balanced, current⟩ spares run
    have moves := step_moves spares run
    exact ⟨balanced.moves moves, current.moves balanced moves⟩

/-- After a successful suspend the record tells where the state of the T2 is. -/
def Settled (s : PmRun) : Prop :=
  s.last = some (.suspend, .ok ()) → s.recorded = s.lastSaved

theorem suspendFails_settled (s : PmRun) (status : Errno) : (s.suspendFails status).Settled := by
  intro last
  simp [suspendFails] at last

theorem resumeReturns_settled (s : PmRun) (status : Except Errno Unit) :
    (s.resumeReturns status).Settled := by
  intro last
  simp [resumeReturns] at last

theorem saveSent_settled {attempt : Nat} (settled : s.Settled) (outcome : Except Errno (BitVec 64)) :
    (s.saveSent attempt buffer outcome).Settled := by
  cases outcome with
  | error status => exact suspendFails_settled _ status
  | ok resp =>
    simp only [saveSent]
    split
    · exact fun _ => rfl
    · split
      · exact settled
      · exact suspendFails_settled _ _

theorem restoreSent_settled (s : PmRun) (outcome : Except Errno (BitVec 64)) :
    (s.restoreSent outcome).Settled := by
  unfold restoreSent
  split
  · exact resumeReturns_settled _ _
  · exact resumeReturns_settled _ _

theorem Settled.step (settled : s.Settled) (spares : s.SavesUnrecorded a) (run : s.step a = some t) :
    t.Settled := by
  cases step_goes run with
  | saveSent stage => exact saveSent_settled settled _
  | restoreSent stage => exact restoreSent_settled s _
  | misaligned | sleepFails => exact suspendFails_settled _ _
  | unreached => exact resumeReturns_settled _ _
  | sleeps stage =>
    have unrecorded := recorded_of_ptr (spares (by simp [endsSuspend, stage]))
    exact fun _ => unrecorded
  | suspends | unallocated | allocated | resumes | linked | polls => exact settled

theorem settled_under (reach : machine.ReachableUnder SavesUnrecorded s) : s.Settled := by
  refine reach.invariant ?_ (fun _ _ _ settled spares run => settled.step spares run)
  rintro _ rfl last
  rfl

theorem outgoing_some (stage : s.stage = .restoreSend) (recorded : s.recorded = some buffer) :
    s.outgoing = some buffer.restoreMessage := by
  simp only [outgoing, stage, recorded]

theorem outgoing_none (stage : s.stage = .restoreSend) (recorded : s.recorded = none) :
    s.outgoing = some (bceMbMsg .restoreNoState 0) := by
  simp only [outgoing, stage, recorded]

theorem restoreMessage_apart (buffer : SaveBuffer) :
    buffer.restoreMessage ≠ bceMbMsg .restoreNoState 0 := by
  intro same
  have types := congrArg bceMbType same
  rw [SaveBuffer.restoreMessage, bceMbType_msg, bceMbType_msg] at types
  exact absurd types (by decide)

/-- Over every run of suspends and resumes in which no suspend returns 0 while an earlier buffer is
still recorded: each buffer given out was freed once, with the size and address it came with, or is
recorded, or is in the hand of the running suspend. A recorded buffer leaves the record by being
freed. The message of a resume restores from the buffer the last successful suspend saved to when
that is not freed yet, which it never is right after that suspend, and has no state otherwise. -/
theorem save_buffers_owned (reach : machine.ReachableUnder SavesUnrecorded s) :
    (s.freed ++ s.recorded.toList ++ s.inHand.toList).Perm s.allocated ∧ s.allocated.Nodup ∧
    (∀ a t b, s.SavesUnrecorded a → s.step a = some t → s.recorded = some b →
      t.recorded ≠ some b → t.recorded = none ∧ t.freed = s.freed ++ [b]) ∧
    (s.stage = .restoreSend →
      (∀ b, s.lastSaved = some b → b ∉ s.freed → s.outgoing = some b.restoreMessage) ∧
      (s.outgoing = some (bceMbMsg .restoreNoState 0) ↔ ∀ b, s.lastSaved = some b → b ∈ s.freed)) ∧
    (s.last = some (.suspend, .ok ()) → ∀ b, s.lastSaved = some b → b ∉ s.freed) := by
  obtain ⟨balanced, current⟩ := ledger_under reach
  refine ⟨balanced.shared, balanced.distinct, ?_, ?_, ?_⟩
  · intro a t b spares run recorded left
    exact (step_moves spares run).recorded_leaves recorded left
  · intro stage
    refine ⟨?_, ?_⟩
    · intro b saved kept
      have recorded : s.recorded = some b := (current b).mpr ⟨saved, kept⟩
      exact outgoing_some stage recorded
    · obtain recorded | ⟨b, recorded⟩ := Option.eq_none_or_eq_some s.recorded
      · have freed : ∀ b, s.lastSaved = some b → b ∈ s.freed := by
          intro b saved
          by_contra kept
          have also : s.recorded = some b := (current b).mpr ⟨saved, kept⟩
          exact absurd (recorded.symm.trans also) (by simp)
        exact ⟨fun _ => freed, fun _ => outgoing_none stage recorded⟩
      · obtain ⟨saved, kept⟩ := (current b).mp recorded
        rw [outgoing_some stage recorded]
        constructor
        · exact fun same => absurd (Option.some.inj same) (restoreMessage_apart b)
        · exact fun freed => absurd (freed b saved) kept
  · intro last b saved
    have recorded : s.recorded = some b := (settled_under reach last).trans saved
    exact ((current b).mp recorded).2

/-- A suspend that saves in its second buffer, and the resume after it. -/
theorem save_buffers_owned_resumed : ∃ s b, machine.ReachableUnder SavesUnrecorded s ∧
    s.stage = .restoreSend ∧ s.lastSaved = some b ∧ b.size = 0x3000 ∧ s.freed.length = 1 ∧
    s.outgoing = some b.restoreMessage := by
  obtain ⟨s, ran, stage, saved, freed, last⟩ : ∃ s, (machine.guard SavesUnrecorded).run start
      [.suspend, .alloc (some 0x8000), .sent (.ok (bceMbMsg .saveStateAndSleepFailure 0x2000)),
        .alloc (some 0x10000), .sent (.ok (bceMbMsg .saveRestoreStateComplete 0)),
        .resume, .poll 0xffff, .poll pciVendorIdApple] = some s ∧ s.stage = .restoreSend ∧
      s.lastSaved = some ⟨1, 0x10000, 0x3000⟩ ∧ s.freed.length = 1 ∧
      s.last = some (.suspend, .ok ()) :=
    ⟨_, rfl, rfl, rfl, rfl, rfl⟩
  have reach := Machine.ReachableUnder.of_run (M := machine) rfl _ ran
  have owned := save_buffers_owned reach
  have kept := owned.2.2.2.2 last _ saved
  exact ⟨s, _, reach, stage, saved, rfl, freed, (owned.2.2.2.1 stage).1 _ saved kept⟩

/-- A suspend saves its state, and the resume after it does not reach the T2. -/
def resumeUnreached : List PmStep :=
  [.suspend, .alloc (some 0x8000), .sent (.ok (bceMbMsg .saveRestoreStateComplete 0)), .resume] ++
    List.replicate 120 (.poll 0xffff)

/-- The buffer stays recorded after that. When the next suspend sleeps without state, its resume
restores from this old buffer; when it saves its state, the old buffer is neither freed nor
recorded any more. -/
theorem recorded_buffer_stale :
    (∃ s b, machine.Reachable s ∧ s.stage = .restoreSend ∧ s.lastSaved = none ∧
      s.outgoing = some (SaveBuffer.restoreMessage b)) ∧
    ∃ s b, machine.Reachable s ∧ s.stage = .idle ∧ b ∈ s.allocated ∧ b ∉ s.freed ∧
      s.recorded ≠ some b := by
  have begins : machine.Reachable start := .start rfl
  constructor
  · obtain ⟨s, ran, stage, saved, sends⟩ : ∃ s, machine.run start
        (resumeUnreached ++ [.suspend, .alloc none, .sent (.ok (bceMbMsg .sleepNoState 0)),
          .resume, .poll pciVendorIdApple]) = some s ∧ s.stage = .restoreSend ∧
        s.lastSaved = none ∧ s.outgoing = some (SaveBuffer.restoreMessage ⟨0, 0x8000, 0x1000⟩) :=
      ⟨_, rfl, rfl, rfl, rfl⟩
    exact ⟨s, _, begins.of_run _ ran, stage, saved, sends⟩
  · obtain ⟨s, ran, stage, given, kept, other⟩ : ∃ s, machine.run start
        (resumeUnreached ++ [.suspend, .alloc (some 0x10000),
          .sent (.ok (bceMbMsg .saveRestoreStateComplete 0))]) = some s ∧ s.stage = .idle ∧
        (⟨0, 0x8000, 0x1000⟩ : SaveBuffer) ∈ s.allocated ∧
        (⟨0, 0x8000, 0x1000⟩ : SaveBuffer) ∉ s.freed ∧
        s.recorded ≠ some (⟨0, 0x8000, 0x1000⟩ : SaveBuffer) :=
      ⟨_, rfl, rfl, by decide, by decide, by decide⟩
    exact ⟨s, _, begins.of_run _ ran, stage, given, kept, other⟩

end PmRun

end AppleBce
