import AppleBce.Basis.BitFields
import AppleBce.Mailbox.SaveRestore

namespace AppleBce

open Basis

theorem page_mask : (0xfff : BitVec 64).toNat = 2 ^ 12 - 1 := rfl

theorem value_mask : (0x3FFFFFFFFFFFFFF : BitVec 64).toNat = 2 ^ 58 - 1 := rfl

theorem bceMbValue_bound (v : BitVec 64) : (bceMbValue v).toNat < 2 ^ 58 := by
  rw [bceMbValue, toNat_and_mask value_mask]
  exact Nat.mod_lt _ (Nat.two_pow_pos 58)

theorem bceMbValue_of_lt {v : BitVec 64} (fits : v.toNat < 2 ^ 58) : bceMbValue v = v := by
  apply BitVec.eq_of_toNat_eq
  rw [bceMbValue, toNat_and_mask value_mask, Nat.mod_eq_of_lt fits]

theorem code_aligned (type : BceMessageType) :
    (type.code.setWidth 64 <<< 58).toNat % 2 ^ 58 = 0 := by
  cases type <;> rfl

theorem bceMbValue_msg (type : BceMessageType) (value : BitVec 64) :
    bceMbValue (bceMbMsg type value) = bceMbValue value :=
  (low_field_iff value_mask (code_aligned type)).mpr (bceMbValue_bound value)

/-- The size of the next attempt after the failure reply `resp`. -/
def sizeAsked (resp : BitVec 64) : BitVec 64 :=
  (bceMbValue resp + 0x10ff) &&& ~~~0xfff

theorem toNat_sizeAsked (resp : BitVec 64) :
    (sizeAsked resp).toNat = 4096 * (((bceMbValue resp).toNat + 0x10ff) / 4096) := by
  have bound := bceMbValue_bound resp
  have sum : (bceMbValue resp + 0x10ff).toNat = (bceMbValue resp).toNat + 0x10ff := by
    rw [BitVec.toNat_add]
    exact Nat.mod_eq_of_lt (by simp; omega)
  rw [sizeAsked, toNat_and_not_mask page_mask, sum, show 2 ^ 12 = 4096 from rfl]

theorem sizeAsked_covers (resp : BitVec 64) :
    (sizeAsked resp).toNat % 4096 = 0 ∧ (bceMbValue resp).toNat + 0x100 ≤ (sizeAsked resp).toNat := by
  rw [toNat_sizeAsked]
  exact ⟨Nat.mul_mod_right _ _, by omega⟩

theorem sizeAsked_lt_iff (resp : BitVec 64) :
    (sizeAsked resp).toNat < 2 ^ 24 ↔ (bceMbValue resp).toNat < 0xffef01 := by
  rw [toNat_sizeAsked]
  omega

namespace SaveBuffer

variable {buffer : SaveBuffer} {type : BceMessageType}

/-- What the T2 reads in a message about the buffer. -/
structure ToldBy (buffer : SaveBuffer) (type : BceMessageType) (msg : BitVec 64) : Prop where
  type : bceMbType msg = type.code
  address : bceMbValue msg &&& ~~~0xfff = buffer.dmaAddr
  pages : bceMbValue msg &&& 0xfff = buffer.size / 4096

/-- A buffer of whole pages that begins with one. -/
structure Paged (buffer : SaveBuffer) : Prop where
  address : buffer.dmaAddr.toNat % 4096 = 0
  size : buffer.size.toNat % 4096 = 0

theorem value_of_aligned (aligned : buffer.dmaAddr.toNat % 4096 = 0) :
    buffer.value = buffer.dmaAddr ||| buffer.size / 4096 := by
  rw [value, and_not_mask_of_aligned page_mask aligned]

theorem toNat_pages (buffer : SaveBuffer) :
    (buffer.size / 4096).toNat = buffer.size.toNat / 4096 :=
  BitVec.toNat_udiv

/-- Below 2^37 no address reaches the type, and neither does a number of pages. -/
theorem bceMbValue_value (aligned : buffer.dmaAddr.toNat % 4096 = 0)
    (below : buffer.dmaAddr.toNat < 2 ^ 37) : bceMbValue buffer.value = buffer.value := by
  have pages : (buffer.size / 4096).toNat < 2 ^ 58 := by
    rw [toNat_pages]
    omega
  apply bceMbValue_of_lt
  rw [value_of_aligned aligned, BitVec.toNat_or]
  exact Nat.or_lt_two_pow (by omega) pages

theorem toldBy_iff (aligned : buffer.dmaAddr.toNat % 4096 = 0)
    (below : buffer.dmaAddr.toNat < 2 ^ 37) :
    buffer.ToldBy type (bceMbMsg type buffer.value) ↔ buffer.size.toNat < 2 ^ 24 := by
  have value : bceMbValue (bceMbMsg type buffer.value) = buffer.dmaAddr ||| buffer.size / 4096 := by
    rw [bceMbValue_msg, bceMbValue_value aligned below, value_of_aligned aligned]
  have fits : (buffer.size / 4096).toNat < 2 ^ 12 ↔ buffer.size.toNat < 2 ^ 24 := by
    rw [toNat_pages]
    omega
  rw [← fits]
  constructor
  · intro told
    have pages := told.pages
    rw [value] at pages
    exact (low_field_iff page_mask aligned).mp pages
  · intro fits
    refine ⟨bceMbType_msg type _, ?_, ?_⟩
    · rw [value]
      exact high_field page_mask aligned fits
    · rw [value]
      exact (low_field_iff page_mask aligned).mpr fits

/-- A message tells one type, one address and one size in whole pages. -/
theorem ToldBy.unique {other : SaveBuffer} {otherType : BceMessageType} {msg : BitVec 64}
    (told : buffer.ToldBy type msg) (also : other.ToldBy otherType msg) (paged : buffer.Paged)
    (otherPaged : other.Paged) :
    type.code = otherType.code ∧ buffer.dmaAddr = other.dmaAddr ∧ buffer.size = other.size := by
  refine ⟨told.type.symm.trans also.type, told.address.symm.trans also.address, ?_⟩
  have pages := congrArg BitVec.toNat (told.pages.symm.trans also.pages)
  rw [toNat_pages, toNat_pages] at pages
  have size := paged.size
  have otherSize := otherPaged.size
  exact BitVec.eq_of_toNat_eq (by omega)

end SaveBuffer

namespace PmRun

variable {s t : PmRun} {a : PmStep} {buffer : SaveBuffer}

/-- The running send gives the T2 a message about the buffer. -/
inductive Sends (s : PmRun) : BceMessageType → SaveBuffer → BitVec 64 → Prop
  | saves {attempt : Nat} {buffer : SaveBuffer} (stage : s.stage = .saveSend attempt buffer)
      {msg : BitVec 64} (outgoing : s.outgoing = some msg) : Sends s .saveStateAndSleep buffer msg
  | restores {buffer : SaveBuffer} (stage : s.stage = .restoreSend) (recorded : s.recorded = some buffer)
      {msg : BitVec 64} (outgoing : s.outgoing = some msg) : Sends s .restoreStateAndWake buffer msg

/-- The T2 asks for at most 4095 pages whenever it is asked again. -/
def AsksFewPages (s : PmRun) : PmStep → Prop
  | .sent (.ok resp) =>
    match s.stage with
    | .saveSend attempt _ =>
      bceMbType resp = BceMessageType.saveStateAndSleepFailure.code → attempt + 1 < 5 →
        (bceMbValue resp).toNat < 0xffef01
    | _ => True
  | _ => True

instance (s : PmRun) (a : PmStep) : Decidable (s.AsksFewPages a) := by
  unfold AsksFewPages
  split
  · split <;> infer_instance
  · infer_instance

/-- Every size the calls hold has the property, and the buffers begin with a page. -/
structure Sized (P : BitVec 64 → Prop) (s : PmRun) : Prop where
  asked : ∀ attempt size, s.stage = .saveAlloc attempt size → P size
  inHand : ∀ buffer, s.inHand = some buffer → buffer.dmaAddr.toNat % 4096 = 0 ∧ P buffer.size
  recorded : ∀ buffer, s.recorded = some buffer → buffer.dmaAddr.toNat % 4096 = 0 ∧ P buffer.size

variable {P : BitVec 64 → Prop}

theorem Sized.suspendFails (sized : s.Sized P) (status : Errno) : (s.suspendFails status).Sized P :=
  ⟨nofun, nofun, sized.recorded⟩

theorem Sized.resumeReturns (sized : s.Sized P) (status : Except Errno Unit) :
    (s.resumeReturns status).Sized P :=
  ⟨nofun, nofun, sized.recorded⟩

theorem Sized.sleepSend (sized : s.Sized P) : { s with stage := .sleepSend }.Sized P :=
  ⟨nofun, nofun, sized.recorded⟩

theorem Sized.saveSent {attempt : Nat} {outcome : Except Errno (BitVec 64)} (sized : s.Sized P)
    (stage : s.stage = .saveSend attempt buffer)
    (asks : ∀ resp, outcome = .ok resp →
      bceMbType resp = BceMessageType.saveStateAndSleepFailure.code → attempt + 1 < 5 →
        P (sizeAsked resp)) :
    (s.saveSent attempt buffer outcome).Sized P := by
  have held := sized.inHand buffer (by rw [PmRun.inHand, stage])
  have freed : (s.free buffer).Sized P := ⟨sized.asked, sized.inHand, sized.recorded⟩
  cases outcome with
  | error status => exact freed.suspendFails status
  | ok resp =>
    by_cases complete : bceMbType resp = BceMessageType.saveRestoreStateComplete.code
    · rw [PmRun.saveSent, if_pos complete]
      refine ⟨?_, ?_, ?_⟩
      · intro next size asked
        cases asked
      · intro other inHand
        cases inHand
      · intro other recorded
        cases Option.some.inj recorded
        exact held
    by_cases failure : bceMbType resp = BceMessageType.saveStateAndSleepFailure.code
    · by_cases again : attempt + 1 < 5
      · simp only [PmRun.saveSent, if_neg complete, if_pos failure, if_pos again]
        refine ⟨?_, ?_, freed.recorded⟩
        · intro next size asked
          cases asked
          exact asks resp rfl failure again
        · intro other inHand
          cases inHand
      · simp only [PmRun.saveSent, if_neg complete, if_pos failure, if_neg again]
        exact freed.sleepSend
    · simp only [PmRun.saveSent, if_neg complete, if_neg failure]
      exact freed.suspendFails .inval

theorem Sized.restoreSent (sized : s.Sized P) (outcome : Except Errno (BitVec 64)) :
    (s.restoreSent outcome).Sized P := by
  rw [PmRun.restoreSent]
  split
  · exact sized.resumeReturns _
  · exact ⟨nofun, nofun, nofun⟩

/-- A step keeps the property when the sizes the T2 asks for have it. -/
theorem Sized.step (sized : s.Sized P) (first : P pageSize)
    (asks : ∀ attempt buffer resp, s.stage = .saveSend attempt buffer → a = .sent (.ok resp) →
      bceMbType resp = BceMessageType.saveStateAndSleepFailure.code → attempt + 1 < 5 →
        P (sizeAsked resp))
    (run : s.step a = some t) : t.Sized P := by
  cases step_goes run with
  | suspends stage =>
    refine ⟨?_, nofun, sized.recorded⟩
    intro attempt size asked
    cases asked
    exact first
  | allocated buffer stage same aligned =>
    refine ⟨nofun, ?_, sized.recorded⟩
    intro other held
    cases Option.some.inj held
    subst same
    have zero := congrArg BitVec.toNat aligned
    exact ⟨by simpa using zero, sized.asked _ _ stage⟩
  | saveSent stage =>
    refine sized.saveSent stage ?_
    intro resp same
    exact asks _ _ resp stage (congrArg PmStep.sent same)
  | restoreSent stage => exact sized.restoreSent _
  | unreached => exact sized.resumeReturns _
  | unallocated | misaligned | resumes | linked | polls | sleepFails | sleeps =>
    exact ⟨nofun, nofun, sized.recorded⟩

theorem start_sized (P : BitVec 64 → Prop) : start.Sized P :=
  ⟨nofun, nofun, nofun⟩

/-- In every run all sizes are whole pages. -/
theorem sized_pages (reach : machine.Reachable s) : s.Sized fun size => size.toNat % 4096 = 0 := by
  refine reach.invariant ?_ ?_
  · rintro _ rfl
    exact start_sized _
  · intro s a t sized run
    refine sized.step rfl ?_ run
    intro attempt buffer resp stage sent failure again
    exact (sizeAsked_covers resp).1

theorem sized_few (reach : machine.ReachableUnder AsksFewPages s) :
    s.Sized fun size => size.toNat < 2 ^ 24 := by
  refine reach.invariant ?_ ?_
  · rintro _ rfl
    exact start_sized _
  · intro s a t sized few run
    refine sized.step (by decide) ?_ run
    rintro attempt buffer resp stage rfl failure again
    have asked : (bceMbValue resp).toNat < 0xffef01 := by
      simp only [AsksFewPages, stage] at few
      exact few failure again
    exact (sizeAsked_lt_iff resp).mpr asked

/-- The message of a save or restore is that of its buffer, which the calls hold. -/
theorem Sends.held {type : BceMessageType} {msg : BitVec 64} (sends : s.Sends type buffer msg)
    (sized : s.Sized P) :
    msg = bceMbMsg type buffer.value ∧ buffer.dmaAddr.toNat % 4096 = 0 ∧ P buffer.size := by
  cases sends with
  | saves stage outgoing =>
    rw [PmRun.outgoing, stage] at outgoing
    exact ⟨(Option.some.inj outgoing).symm, sized.inHand buffer (by rw [PmRun.inHand, stage])⟩
  | restores stage recorded outgoing =>
    rw [PmRun.outgoing, stage] at outgoing
    simp only [recorded] at outgoing
    exact ⟨(Option.some.inj outgoing).symm, sized.recorded buffer recorded⟩

theorem Sends.told_iff {type : BceMessageType} {msg : BitVec 64} (sends : s.Sends type buffer msg)
    (reach : machine.Reachable s) (below : buffer.dmaAddr.toNat < 2 ^ 37) :
    buffer.Paged ∧ (buffer.ToldBy type msg ↔ buffer.size.toNat < 2 ^ 24) := by
  obtain ⟨rfl, aligned, pages⟩ := sends.held (sized_pages reach)
  exact ⟨⟨aligned, pages⟩, SaveBuffer.toldBy_iff aligned below⟩

theorem Sends.told {type : BceMessageType} {msg : BitVec 64} (sends : s.Sends type buffer msg)
    (reach : machine.ReachableUnder AsksFewPages s) (below : buffer.dmaAddr.toNat < 2 ^ 37) :
    buffer.ToldBy type msg := by
  obtain ⟨-, -, small⟩ := sends.held (sized_few reach)
  exact (sends.told_iff reach.reachable below).2.mpr small

/-- In every run of suspends and resumes. After a failure reply in a save with an attempt left the next
size is a multiple of the page size and at least 0x100 above the value in the reply, and it is below
2^24 exactly when that value is below 0xffef01. The message about a page-aligned buffer below 2^37 in
a save or restore tells its type, address and pages exactly when the buffer is smaller than 2^24. It
always does in a run whose failure replies are below 0xffef01, where no message tells two types,
addresses or sizes. -/
theorem save_message_told (reach : machine.Reachable s) :
    (∀ t attempt buffer resp, s.stage = .saveSend attempt buffer →
      bceMbType resp = BceMessageType.saveStateAndSleepFailure.code → attempt + 1 < 5 →
      s.step (.sent (.ok resp)) = some t →
      ∃ size, t.stage = .saveAlloc (attempt + 1) size ∧ size.toNat % 4096 = 0 ∧
        (bceMbValue resp).toNat + 0x100 ≤ size.toNat ∧
        (size.toNat < 2 ^ 24 ↔ (bceMbValue resp).toNat < 0xffef01)) ∧
    (∀ type buffer msg, s.Sends type buffer msg → buffer.dmaAddr.toNat < 2 ^ 37 →
      buffer.Paged ∧ (buffer.ToldBy type msg ↔ buffer.size.toNat < 2 ^ 24)) ∧
    (machine.ReachableUnder AsksFewPages s →
      (∀ type buffer msg, s.Sends type buffer msg → buffer.dmaAddr.toNat < 2 ^ 37 →
        buffer.ToldBy type msg) ∧
      ∀ t type other buffer also msg, machine.ReachableUnder AsksFewPages t →
        s.Sends type buffer msg → t.Sends other also msg →
        buffer.dmaAddr.toNat < 2 ^ 37 → also.dmaAddr.toNat < 2 ^ 37 →
        type.code = other.code ∧ buffer.dmaAddr = also.dmaAddr ∧ buffer.size = also.size) := by
  refine ⟨?_, ?_, ?_⟩
  · intro t attempt buffer resp stage failure again run
    have incomplete : bceMbType resp ≠ BceMessageType.saveRestoreStateComplete.code := by
      rw [failure]
      decide
    simp only [step, stage, saveSent, if_neg incomplete, if_pos failure, if_pos again] at run
    cases Option.some.inj run
    obtain ⟨whole, covers⟩ := sizeAsked_covers resp
    exact ⟨sizeAsked resp, rfl, whole, covers, sizeAsked_lt_iff resp⟩
  · exact fun type buffer msg sends below => sends.told_iff reach below
  · intro few
    refine ⟨fun type buffer msg sends below => sends.told few below, ?_⟩
    intro t type other buffer also msg fewAlso sends sendsAlso below belowAlso
    have paged := (sends.told_iff reach below).1
    have pagedAlso := (sendsAlso.told_iff fewAlso.reachable belowAlso).1
    exact (sends.told few below).unique (sendsAlso.told fewAlso belowAlso) paged pagedAlso

/-- A save in its second buffer, for which the T2 asked with 0x2000. -/
theorem save_message_told_second : ∃ s msg, machine.ReachableUnder AsksFewPages s ∧
    s.outgoing = some msg ∧ SaveBuffer.ToldBy ⟨1, 0x10000, 0x3000⟩ .saveStateAndSleep msg := by
  obtain ⟨s, ran, stage, outgoing⟩ : ∃ s, (machine.guard AsksFewPages).run start
      [.suspend, .alloc (some 0x8000), .sent (.ok (bceMbMsg .saveStateAndSleepFailure 0x2000)),
        .alloc (some 0x10000)] = some s ∧ s.stage = .saveSend 1 ⟨1, 0x10000, 0x3000⟩ ∧
        s.outgoing = some (bceMbMsg .saveStateAndSleep 0x10003) :=
    ⟨_, rfl, rfl, rfl⟩
  have reach := Machine.ReachableUnder.of_run (M := machine) rfl _ ran
  have told := ((save_message_told reach.reachable).2.2 reach).1 _ _ _ (.saves stage outgoing) (by decide)
  exact ⟨s, _, reach, outgoing, told⟩

/-- Asked with 0xffef01 the host takes 4096 pages, whose number falls on the address. -/
theorem many_pages_untold : ¬ ∀ s type buffer msg, machine.Reachable s → s.Sends type buffer msg →
    buffer.dmaAddr.toNat < 2 ^ 37 → buffer.ToldBy type msg := by
  intro told
  obtain ⟨s, ran, stage, outgoing⟩ : ∃ s, machine.run start
      [.suspend, .alloc (some 0x8000), .sent (.ok (bceMbMsg .saveStateAndSleepFailure 0xffef01)),
        .alloc (some 0x10000)] = some s ∧ s.stage = .saveSend 1 ⟨1, 0x10000, 0x1000000⟩ ∧
        s.outgoing = some (bceMbMsg .saveStateAndSleep 0x11000) :=
    ⟨_, rfl, rfl, rfl⟩
  have reach : machine.Reachable s := Machine.Reachable.of_run (.start rfl) _ ran
  have address := (told s _ _ _ reach (.saves stage outgoing) (by decide)).address
  exact absurd address (by decide)

end PmRun

end AppleBce
