import AppleBce.Vhci.Linked
import AppleBce.Vhci.TableBounds
import AppleBce.Vhci.UrbRelations

namespace AppleBce

open Basis

/-- `param1` of the commands for an endpoint, `dev | (endpoint << 8)`. -/
def bceVhciCmdEndpointParam1 (dev endpoint : BitVec 8) : BitVec 32 :=
  dev.setWidth 32 ||| (endpoint.setWidth 32 <<< 8)

/-- The message of `bce_vhci_cmd_endpoint_set_state`. -/
def bceVhciCmdEndpointSetState (dev endpoint : BitVec 8) (newState : BceVhciEndpointState) : BceVhciMessage :=
  ⟨BceVhciCommand.endpointSetState.code, 0, bceVhciCmdEndpointParam1 dev endpoint, newState.code⟩

/-- The message of `bce_vhci_cmd_endpoint_reset`. -/
def bceVhciCmdEndpointReset (dev endpoint : BitVec 8) : BceVhciMessage :=
  ⟨BceVhciCommand.endpointReset.code, 0, bceVhciCmdEndpointParam1 dev endpoint, 0⟩

theorem cmdEndpointParam1_dev (dev endpoint : BitVec 8) :
    (bceVhciCmdEndpointParam1 dev endpoint).setWidth 8 = dev := by
  ext i below
  simp [bceVhciCmdEndpointParam1]

theorem cmdEndpointParam1_endpoint (dev endpoint : BitVec 8) :
    (bceVhciCmdEndpointParam1 dev endpoint >>> 8).setWidth 8 = endpoint := by
  ext i below
  simp [bceVhciCmdEndpointParam1, below, show 8 + i < 32 by omega, show i < 32 by omega]

/-- The bits of an endpoint address that the driver tells the T2 are those the index is made of. -/
theorem endpointIndex_masked (addr : BitVec 8) :
    bceVhciEndpointIndex (addr &&& 0x8f) = bceVhciEndpointIndex addr := by
  have direction : addr &&& 0x8f &&& 0x80 = addr &&& 0x80 := by
    rw [BitVec.and_assoc]
    rfl
  have number : addr &&& 0x8f &&& 0xf = addr &&& 0xf := by
    rw [BitVec.and_assoc]
    rfl
  simp only [bceVhciEndpointIndex, direction, number]

namespace BceVhciTransferQueue

variable {q r s : BceVhciTransferQueue}

/-- The commands that are sent for the endpoint of a queue: by a pause and a resume, by the work item that
resets a stalled endpoint, and by that which flushes endpoint 0. -/
def endpointCommands (q : BceVhciTransferQueue) : List BceVhciMessage :=
  [bceVhciCmdEndpointSetState q.devAddr q.endpAddr .paused, bceVhciCmdEndpointSetState q.devAddr q.endpAddr .active,
    bceVhciCmdEndpointReset q.devAddr (q.endp.bEndpointAddress &&& 0x8f)] ++
    if q.endpAddr = 0 then [bceVhciCmdEndpointReset q.devAddr 0] else []

theorem endpointCommands_param1 {q : BceVhciTransferQueue} (own : q.endpAddr = q.endp.bEndpointAddress &&& 0x8f)
    {msg : BceVhciMessage} (sent : msg ∈ q.endpointCommands) :
    msg.param1 = bceVhciCmdEndpointParam1 q.devAddr q.endpAddr := by
  rw [endpointCommands, ← own] at sent
  obtain pauses | flushes := List.mem_append.mp sent
  · simp only [List.mem_cons, List.not_mem_nil, or_false] at pauses
    obtain rfl | rfl | rfl := pauses <;> rfl
  · obtain ⟨control, flushes⟩ := List.mem_ite_nil_right.mp flushes
    rw [List.mem_singleton.mp flushes, control]
    rfl

/-- The queue goes by the address it had. -/
structure SameAddress (q r : BceVhciTransferQueue) : Prop where
  endp : r.endp = q.endp
  devAddr : r.devAddr = q.devAddr
  endpAddr : r.endpAddr = q.endpAddr

theorem SameAddress.refl (q : BceVhciTransferQueue) : q.SameAddress q :=
  ⟨rfl, rfl, rfl⟩

theorem SameAddress.trans (first : q.SameAddress r) (second : r.SameAddress s) : q.SameAddress s :=
  ⟨second.endp.trans first.endp, second.devAddr.trans first.devAddr, second.endpAddr.trans first.endpAddr⟩

theorem Frame.sameAddress (frame : q.Frame r) : q.SameAddress r :=
  ⟨frame.endp, frame.devAddr, frame.endpAddr⟩

theorem Quiet.sameAddress (quiet : q.Quiet r) : q.SameAddress r :=
  ⟨quiet.endp, quiet.devAddr, quiet.endpAddr⟩

/-- No work on URBs changes the address. -/
theorem sameAddress_relation : UrbRelation SameAddress where
  refl := .refl
  trans := .trans
  receive u q := (u.dataTransferIn_starts q).frame.sameAddress
  send u addr size q := (u.sendOutData_frame addr size q).sameAddress
  complete _ _ _ := ⟨rfl, rfl, rfl⟩
  stop _ := ⟨rfl, rfl, rfl⟩
  stall _ := ⟨rfl, rfl, rfl⟩
  account := ⟨rfl, rfl, rfl⟩

theorem completion_sameAddress (q : BceVhciTransferQueue) (out : Bool) (c : BceSqCompletionData) :
    q.SameAddress (q.completion out c) := by
  obtain ⟨_, _, _, _, ended⟩ := q.completion_eq out c
  rw [ended]
  exact (sameAddress_relation.completionBody q out c).trans ⟨rfl, rfl, rfl⟩

theorem resumeSection_sameAddress (q : BceVhciTransferQueue) : q.SameAddress q.resumeSection := by
  have active : q.SameAddress { q with active := true } := ⟨rfl, rfl, rfl⟩
  exact active.trans (sameAddress_relation.resumeSection q)

theorem cancelAll_sameAddress (q : BceVhciTransferQueue) : q.SameAddress q.cancelAll := by
  have stopped : q.SameAddress { q with active := false } := ⟨rfl, rfl, rfl⟩
  exact stopped.trans (sameAddress_relation.cancelLoop q.urbList _)

theorem doResume_sameAddress (q : BceVhciTransferQueue) (env : PauseEnv) : q.SameAddress (q.doResume env).2 := by
  have answered := (TransferRun.quiet_setStateAnswered q env).sameAddress
  unfold doResume
  dsimp only
  split
  · exact answered
  split
  · exact answered
  · exact answered.trans (resumeSection_sameAddress _)

theorem transferQueueResume_sameAddress (q : BceVhciTransferQueue) (src : BceVhciPauseSource) (env : PauseEnv) :
    q.SameAddress (q.transferQueueResume src env).2 := by
  have resumed := q.doResume_sameAddress env
  unfold transferQueueResume
  split
  · exact .refl q
  split
  · exact ⟨rfl, rfl, rfl⟩
  split
  · rename_i r done
    rw [done] at resumed
    exact resumed.trans ⟨rfl, rfl, rfl⟩
  · rename_i done
    rwa [done] at resumed

theorem busSuspend_sameAddress (q : BceVhciTransferQueue) (env : PauseEnv) : q.SameAddress (q.busSuspend env) := by
  unfold busSuspend
  split
  · have stopped : q.SameAddress { q with active := false } := ⟨rfl, rfl, rfl⟩
    exact (stopped.trans (TransferRun.quiet_setStateAnswered _ env).sameAddress).trans ⟨rfl, rfl, rfl⟩
  · exact ⟨rfl, rfl, rfl⟩

end BceVhciTransferQueue

namespace TransferRun

open BceVhciTransferQueue

variable {s t : TransferRun} {a : TransferStep}

theorem opStep_sameAddress {op : TransferOp} (run : s.opStep op = some t) : s.q.SameAddress t.q := by
  cases op with
  | create urb allocated link =>
    obtain ⟨-, after⟩ := Option.ite_none_right_eq_some.mp run
    cases after
    rw [created_q]
    exact sameAddress_relation.urbCreate s.q urb allocated link
  | cancel id status =>
    obtain ⟨-, after⟩ := Option.ite_none_right_eq_some.mp run
    cases after
    rw [afterCancel_q]
    exact sameAddress_relation.urbRequestCancel s.q id status
  | event msg allocated =>
    obtain ⟨-, after⟩ := Option.ite_none_right_eq_some.mp run
    cases after
    exact sameAddress_relation.event s.q msg allocated
  | completion out c =>
    obtain ⟨-, after⟩ := Option.ite_none_right_eq_some.mp run
    cases after
    exact s.q.completion_sameAddress out c
  | completionEnd =>
    cases Option.some.inj run
    exact sameAddress_relation.deliverPending s.q

theorem step_sameAddress (run : machine.step s a = some t) : s.q.SameAddress t.q := by
  cases step_effect run with
  | op op _ taken => exact opStep_sameAddress taken
  | giveback _ _ _ _ _ after | flushed _ _ _ _ after | spliced _ _ _ after =>
    subst after
    exact ⟨rfl, rfl, rfl⟩
  | resumed _ onWorker _ _ _ _ after =>
    subst after
    have resumed := s.q.resumeSection_sameAddress
    cases onWorker <;> exact resumed
  | cancelledAll _ _ after =>
    subst after
    exact s.q.cancelAll_sameAddress
  | quiet same _ => exact same.sameAddress

theorem run_sameAddress (as : List TransferStep) (ran : machine.run s as = some t) : s.q.SameAddress t.q := by
  induction as generalizing s with
  | nil =>
    cases Option.some.inj ran
    exact .refl _
  | cons a as ih =>
    obtain ⟨r, first, ran⟩ := Option.bind_eq_some_iff.mp ran
    exact (step_sameAddress first).trans (ih ran)

end TransferRun

/-- The queue was created for the endpoint at the device id. -/
structure BceVhciTransferQueue.Serves (q : BceVhciTransferQueue) (e : UsbHostEndpoint) (devid : Nat) : Prop where
  endp : q.endp = e.desc
  devAddr : q.devAddr = BitVec.ofNat 8 devid
  endpAddr : q.endpAddr = e.desc.bEndpointAddress &&& 0x8f

theorem BceVhciTransferQueue.SameAddress.serves {q r : BceVhciTransferQueue} {endp : UsbHostEndpoint} {devid : Nat}
    (same : q.SameAddress r) (serves : q.Serves endp devid) : r.Serves endp devid :=
  ⟨same.endp.trans serves.endp, same.devAddr.trans serves.devAddr, same.endpAddr.trans serves.endpAddr⟩

theorem createTransferQueue_serves {endp : UsbHostEndpoint} {devid : Nat} {dir : DmaDataDirection}
    {memory : TransferQueueMemory} {reservations : List Bool} {q : BceVhciTransferQueue}
    (create : bceVhciCreateTransferQueue endp.desc (BitVec.ofNat 8 devid) dir memory reservations = some q) :
    q.Serves endp devid := by
  unfold bceVhciCreateTransferQueue at create
  obtain ⟨-, create⟩ := Option.ite_none_left_eq_some.mp create
  obtain ⟨-, create⟩ := Option.ite_none_left_eq_some.mp create
  obtain ⟨-, create⟩ := Option.ite_none_left_eq_some.mp create
  cases Option.some.inj create
  exact ⟨rfl, rfl, rfl⟩

namespace VhciDevice

variable {dev vdev : VhciDevice} {endp : UsbHostEndpoint} {devid j k : Nat}

/-- The element is for an endpoint with its index, and the queue in it goes by the address of the
endpoint at the device id. -/
structure AddressedAt (dev : VhciDevice) (devid j : Nat) : Prop where
  index : ∀ e, (dev.tq j).endp = some e → e.index = j
  serves : dev.hasQueue j → ∀ q, (dev.tq j).queue = some q → ∃ e, (dev.tq j).endp = some e ∧ q.Serves e devid

/-- So are all elements of a device. -/
def Addressed (dev : VhciDevice) (devid : Nat) : Prop :=
  ∀ j, dev.AddressedAt devid j

/-- A device without queues. -/
theorem addressed_of_idle (index : ∀ j e, (dev.tq j).endp = some e → e.index = j)
    (idle : ∀ j, dev.hasQueue j → (dev.tq j).queue = none) : dev.Addressed devid := by
  refine fun j => ⟨index j, ?_⟩
  intro has q live
  cases (idle j has).symm.trans live

/-- The queue of an element is worked on, or destroyed. -/
theorem Addressed.work {queue : Option BceVhciTransferQueue} (addressed : dev.Addressed devid)
    (same : ∀ r, queue = some r → ∃ q, (dev.tq j).queue = some q ∧ q.SameAddress r) :
    (dev.setQueue j { dev.tq j with queue }).Addressed devid := by
  intro k
  obtain ⟨index, serves⟩ := addressed k
  by_cases here : k = j
  · subst here
    refine ⟨?_, ?_⟩
    · rwa [setQueue_self]
    · intro has r live
      rw [setQueue_self] at live ⊢
      obtain ⟨q, before, same⟩ := same r live
      obtain ⟨e, owner, serves⟩ := serves has q before
      exact ⟨e, owner, same.serves serves⟩
  · refine ⟨?_, ?_⟩
    · rwa [setQueue_other _ _ here]
    · rwa [setQueue_other _ _ here]

theorem Addressed.destroyQueue (addressed : dev.Addressed devid) (j : Nat) : (dev.destroyQueue j).Addressed devid :=
  addressed.work fun _ live => nomatch live

/-- Bits of queues are cleared. -/
theorem Addressed.setMask {mask : BitVec 32} (addressed : dev.Addressed devid)
    (fewer : ∀ j, (dev.setMask mask).hasQueue j → dev.hasQueue j) : (dev.setMask mask).Addressed devid :=
  fun j => ⟨(addressed j).index, fun has => (addressed j).serves (fewer j has)⟩

theorem Addressed.clear (addressed : dev.Addressed devid) (j : Nat) :
    (dev.setMask (dev.tqMask &&& ~~~tqBit j)).Addressed devid := by
  refine addressed.setMask fun k has => ?_
  rw [hasQueue_clear] at has
  exact (Bool.and_eq_true_iff.mp has).1

/-- An element after the creation of its queue. -/
theorem createQueue_self (dev : VhciDevice) (endp : UsbHostEndpoint) (devid : Nat) (dir : DmaDataDirection)
    (env : QueueEnv) (index : endp.index = j) : (dev.createQueue j endp devid dir env).AddressedAt devid j := by
  refine ⟨?_, ?_⟩
  · intro e owner
    rw [createQueue, setQueue_self] at owner
    cases owner
    exact index
  · intro _ q live
    rw [createQueue, setQueue_self] at live
    refine ⟨endp, ?_, createTransferQueue_serves live⟩
    rw [createQueue, setQueue_self]

theorem AddressedAt.other {queue : DeviceQueue} (addressed : dev.AddressedAt devid k) (apart : k ≠ j) :
    (dev.setQueue j queue).AddressedAt devid k := by
  obtain ⟨index, serves⟩ := addressed
  refine ⟨?_, ?_⟩
  · rwa [setQueue_other _ _ apart]
  · rwa [setQueue_other _ _ apart]

theorem Addressed.createQueue (addressed : dev.Addressed devid) (endp : UsbHostEndpoint) (dir : DmaDataDirection)
    (env : QueueEnv) (index : endp.index = j) : (dev.createQueue j endp devid dir env).Addressed devid := by
  intro k
  by_cases here : k = j
  · subst here
    exact dev.createQueue_self endp devid dir env index
  · exact (addressed k).other here

/-- The bit of the element is set as well. -/
theorem Addressed.createSet (addressed : dev.Addressed devid) (endp : UsbHostEndpoint) (dir : DmaDataDirection)
    (env : QueueEnv) (index : endp.index = j) :
    ((dev.createQueue j endp devid dir env).setMask (dev.tqMask ||| tqBit j)).Addressed devid := by
  have below : j < 32 := index ▸ endp.index_lt
  have created := addressed.createQueue endp dir env index
  intro k
  refine ⟨(created k).index, ?_⟩
  intro has q live
  by_cases here : k = j
  · subst here
    have live : bceVhciCreateTransferQueue endp.desc (BitVec.ofNat 8 devid) dir env.memory env.reservations =
      some q := by
      rwa [setMask_tq, VhciDevice.createQueue, setQueue_self] at live
    refine ⟨endp, ?_, createTransferQueue_serves live⟩
    rw [setMask_tq, VhciDevice.createQueue, setQueue_self]
  · have before : dev.hasQueue k := by
      have bits := dev.hasQueue_set below k
      rw [decide_eq_false here, Bool.or_false] at bits
      exact bits.symm.trans has
    exact (created k).serves before q live

theorem Addressed.resumeQueues (env : Nat → PauseEnv) (js : List Nat) (addressed : dev.Addressed devid) :
    (dev.resumeQueues env js).2.Addressed devid := by
  induction js generalizing dev with
  | nil => exact addressed
  | cons j js ih =>
    unfold VhciDevice.resumeQueues
    split
    · split
      · exact ih addressed
      · rename_i q found
        have one : (dev.setQueue j { dev.tq j with
            queue := some (q.transferQueueResume .suspend (env j)).2 }).Addressed devid := by
          refine addressed.work fun r live => ⟨q, found, ?_⟩
          cases live
          exact q.transferQueueResume_sameAddress .suspend (env j)
        dsimp only
        split
        · exact one
        · exact ih one
    · exact ih addressed

/-- All there are of a kind of work that keeps the address. -/
theorem Addressed.map {f : BceVhciTransferQueue → BceVhciTransferQueue} (addressed : dev.Addressed devid)
    (same : ∀ q : BceVhciTransferQueue, q.SameAddress (f q)) (j : Nat) :
    (dev.setQueue j { dev.tq j with queue := (dev.tq j).queue.map f }).Addressed devid := by
  refine addressed.work fun r live => ?_
  obtain ⟨q, before, after⟩ := Option.map_eq_some_iff.mp live
  exact ⟨q, before, after ▸ same q⟩

theorem Addressed.suspendQueues (env : Nat → PauseEnv) (addressed : dev.Addressed devid) :
    (forLoop 32 (BceVhci.suspendQueue env) dev).Addressed devid := by
  refine forLoop_keeps (P := (Addressed · devid)) addressed fun j vdev _ addressed => ?_
  unfold BceVhci.suspendQueue
  split
  · exact addressed.map (fun q => q.busSuspend_sameAddress (env j)) j
  · exact addressed

theorem Addressed.cancelQueues (v : BceVhci) (addressed : dev.Addressed devid) :
    (forLoop 32 BceVhci.cancelQueue (v, dev)).2.Addressed devid := by
  refine forLoop_keeps (P := fun s : BceVhci × VhciDevice => s.2.Addressed devid) addressed
    fun j s _ addressed => ?_
  unfold BceVhci.cancelQueue
  split
  · refine addressed.map (fun q => ?_) j
    exact q.cancelAll_sameAddress.trans ⟨rfl, rfl, rfl⟩
  · exact addressed

/-- The queues of a device that has been torn down are created again under a new id. -/
theorem addressed_recreate (devid : Nat) (env : Nat → QueueEnv) (v : BceVhci)
    (index : ∀ j e, (dev.tq j).endp = some e → e.index = j) (idle : ∀ j, dev.hasQueue j → (dev.tq j).queue = none) :
    (forLoop 32 (BceVhci.recreateQueue devid env) (v, dev)).2.Addressed devid := by
  refine forLoop_keeps (P := fun s : BceVhci × VhciDevice => s.2.Addressed devid) (addressed_of_idle index idle) ?_
  intro i s _ addressed
  unfold BceVhci.recreateQueue
  split
  · split
    · exact addressed
    · rename_i endp owner
      generalize (if i = 0 then DmaDataDirection.bidirectional
        else if endp.desc.dirIn then .fromDevice else .toDevice) = dir
      have created := addressed.createQueue endp dir (env i) ((addressed i).index endp owner)
      dsimp only
      split
      · exact created.clear i
      · exact created
  · exact addressed

end VhciDevice

namespace BceVhci

variable {v w : BceVhci} {dev : VhciDevice} {devid : Nat}

/-- Every queue of a device in the tables goes by the address of its endpoint at the id of the device. -/
def Addressed (v : BceVhci) : Prop :=
  ∀ d dev, v.devices d = some dev → dev.Addressed d

theorem Addressed.of_devices (addressed : v.Addressed) (same : w.devices = v.devices) : w.Addressed := by
  intro d dev found
  rw [same] at found
  exact addressed d dev found

/-- One entry changes. -/
theorem Addressed.update {entry : Option VhciDevice} (addressed : v.Addressed)
    (devices : w.devices = Function.update v.devices devid entry)
    (new : ∀ dev, entry = some dev → dev.Addressed devid) : w.Addressed := by
  intro d dev found
  rw [devices] at found
  by_cases here : d = devid
  · subst here
    rw [Function.update_self] at found
    exact new dev found
  · rw [Function.update_of_ne here] at found
    exact addressed d dev found

theorem Addressed.forget (addressed : v.Addressed) (devid : Nat)
    (devices : w.devices = Function.update v.devices devid none) : w.Addressed :=
  addressed.update devices fun _ entry => nomatch entry

theorem Addressed.put (addressed : v.Addressed)
    (devices : w.devices = Function.update v.devices devid (some dev)) (new : dev.Addressed devid) :
    w.Addressed := by
  refine addressed.update devices fun dev' entry => ?_
  cases entry
  exact new

theorem Addressed.signalReconnect (addressed : v.Addressed) (port : Nat) : (v.signalReconnect port).Addressed := by
  unfold BceVhci.signalReconnect
  split
  · exact addressed.of_devices rfl
  · exact addressed

theorem zeroed_addressed (object : Nat) : (VhciDevice.zeroed object).Addressed devid :=
  VhciDevice.addressed_of_idle (fun _ _ owner => nomatch owner) fun _ _ => rfl

theorem Addressed.enableDevice (addressed : v.Addressed) (udev : UsbDevice) (env : EnableEnv) :
    (v.enableDevice udev env).2.Addressed := by
  unfold BceVhci.enableDevice
  dsimp only
  split
  · exact addressed.of_devices rfl
  split
  · exact addressed.of_devices rfl
  split
  · exact addressed.of_devices rfl
  split
  · exact addressed.of_devices rfl
  unfold BceVhci.attachDevice
  dsimp only
  split
  · exact addressed.forget env.create.dev.toNat (by simp)
  · have created : ((((VhciDevice.zeroed v.objects).createQueue 0 udev.ep0 env.create.dev.toNat .bidirectional
        env.queue)).setMask (0 ||| tqBit 0)).Addressed env.create.dev.toNat :=
      (zeroed_addressed v.objects).createSet udev.ep0 .bidirectional env.queue udev.ep0_index
    exact addressed.put rfl created

theorem Addressed.freeDevice (addressed : v.Addressed) (udev : UsbDevice) (released : Bool) :
    (v.freeDevice udev released).Addressed := by
  unfold BceVhci.freeDevice
  dsimp only
  split
  · exact Addressed.signalReconnect (v := v.use _) (addressed.of_devices rfl) _
  split
  · exact addressed.of_devices rfl
  · rename_i dev found
    refine Addressed.signalReconnect ?_ _
    unfold BceVhci.freeMapped
    dsimp only
    obtain ⟨hcpriv, frame⟩ := (tearDownQueues_tornDown _ dev).frame
    rw [frame]
    exact addressed.forget (v.portToDevice udev.portnum) (by simp)

theorem Addressed.addEndpoint (addressed : v.Addressed) (endp : UsbHostEndpoint) (queue : QueueEnv) (create : Int) :
    (v.addEndpoint endp queue create).2.Addressed := by
  unfold BceVhci.addEndpoint
  dsimp only
  split
  · exact addressed.of_devices rfl
  split
  · exact addressed.of_devices rfl
  rename_i dev found
  have before : dev.Addressed (v.portToDevice endp.udev.portnum) := addressed _ dev found
  split
  · exact addressed.of_devices rfl
  generalize (if endp.desc.dirIn then DmaDataDirection.fromDevice else .toDevice) = dir
  have created := before.createQueue endp dir queue rfl
  split
  · exact addressed.put (by simp) created
  split
  · exact addressed.put (by simp) (created.destroyQueue endp.index)
  · exact addressed.put (by simp) (before.createSet endp dir queue rfl)

theorem Addressed.destroyAt (addressed : v.Addressed) (object j : Nat) : (v.destroyAt object j).Addressed := by
  intro d dev found
  obtain ⟨before, held, after⟩ := Option.map_eq_some_iff.mp found
  have kept := addressed d before held
  split at after
  · cases after
    exact kept.destroyQueue j
  · cases after
    exact kept

theorem Addressed.dropEndpoint (addressed : v.Addressed) (endp : UsbHostEndpoint) :
    (v.dropEndpoint endp).Addressed := by
  unfold BceVhci.dropEndpoint
  dsimp only
  split
  · exact addressed.of_devices rfl
  split
  · exact addressed.of_devices rfl
  rename_i dev found
  have before : dev.Addressed (v.portToDevice endp.udev.portnum) := addressed _ dev found
  have masked := addressed.put (w := ((v.use (.portToDevice endp.udev.portnum)).use
    (.devices (v.portToDevice endp.udev.portnum))).setDevice (v.portToDevice endp.udev.portnum)
      (some (dev.setMask (dev.tqMask &&& ~~~tqBit endp.index)))) (by simp) (before.clear endp.index)
  split
  · split
    · exact (masked.destroyAt _ _).of_devices rfl
    · exact addressed.of_devices rfl
  · exact (masked.destroyAt _ _).of_devices rfl

/-- A device that has been torn down has no queue of a set bit. -/
theorem TornDown.idle {s : BceVhci × VhciDevice} (torn : TornDown v dev 32 s) (j : Nat) (has : s.2.hasQueue j) :
    (s.2.tq j).queue = none := by
  have before : dev.hasQueue j := (torn.hasQueue j).symm.trans has
  exact torn.destroyed j (VhciDevice.hasQueue_lt before) before

theorem TornDown.index {s : BceVhci × VhciDevice} (torn : TornDown v dev 32 s) (addressed : dev.Addressed devid)
    (j : Nat) (e : UsbHostEndpoint) (owner : (s.2.tq j).endp = some e) : e.index = j :=
  (addressed j).index e ((torn.endp j).symm.trans owner)

/-- A device is reset, behind which it has a new id. -/
theorem Addressed.resetMapped (addressed : v.Addressed) (index : Nat) (env : ResetEnv)
    (before : dev.Addressed devid) :
    (v.resetMapped index devid dev env).2.Addressed := by
  unfold BceVhci.resetMapped
  dsimp only
  have torn := tearDownQueues_tornDown v dev
  generalize v.tearDownQueues dev = s at torn ⊢
  have forgot : (((s.1.setDevice devid none).setPort index 0).deviceDestroy devid env.released).Addressed := by
    obtain ⟨hcpriv, frame⟩ := torn.frame
    exact addressed.forget devid (by simp [frame])
  generalize ((s.1.setDevice devid none).setPort index 0).deviceDestroy devid env.released = w at forgot ⊢
  split
  · exact forgot
  · obtain ⟨hcpriv, frame⟩ := recreate_frame env.create.dev.toNat env.queue
      ((w.deviceCreate env.create.dev.toNat).setPort index env.create.dev.toNat) s.2
    have again := VhciDevice.addressed_recreate env.create.dev.toNat env.queue
      ((w.deviceCreate env.create.dev.toNat).setPort index env.create.dev.toNat) (torn.index before) torn.idle
    exact forgot.put (by simp [frame]) again

theorem Addressed.resetDevice (addressed : v.Addressed) (index : Nat) (env : ResetEnv) :
    (v.resetDevice index env).2.Addressed := by
  unfold BceVhci.resetDevice
  dsimp only
  split
  · exact addressed.of_devices rfl
  split
  · exact addressed.of_devices rfl
  split
  · exact addressed.of_devices rfl
  · rename_i dev found
    have before : dev.Addressed (v.portToDevice index) := addressed _ dev found
    exact Addressed.resetMapped (v := ((v.use _).use _).use _) (addressed.of_devices rfl) index env before

theorem Addressed.hubControl (addressed : v.Addressed) (request : HubRequest) (wIndex wLength : Nat)
    (env : HubEnv) :
    (v.hubControl request wIndex wLength env).2.2.Addressed := by
  unfold BceVhci.hubControl
  dsimp only
  split
  · exact addressed
  split
  · split <;> exact addressed
  · split <;> exact addressed
  · split
    · exact addressed.of_devices rfl
    · exact addressed
  · dsimp only
    split
    · exact addressed.of_devices rfl
    · exact addressed
  · exact addressed.resetDevice wIndex env.reset
  · exact addressed
  · exact addressed
  · dsimp only
    split
    · exact addressed.of_devices rfl
    · exact addressed
  · exact addressed.of_devices rfl
  · exact addressed
  · exact addressed
  · exact addressed

theorem Addressed.suspendPort (addressed : v.Addressed) (env : Nat → Nat → PauseEnv) (i : Nat) :
    (suspendPort env i v).Addressed := by
  unfold BceVhci.suspendPort
  dsimp only
  split
  · exact addressed.of_devices rfl
  split
  · exact addressed.of_devices rfl
  · rename_i dev found
    have before : dev.Addressed (v.portToDevice i) := addressed _ dev found
    exact addressed.put rfl (before.suspendQueues (env i))

theorem Addressed.busSuspend (addressed : v.Addressed) (env : SuspendEnv) : (v.busSuspend env).2.Addressed := by
  unfold BceVhci.busSuspend
  dsimp only
  have before : { v with
      recoveryWatchdog := false
      portResumeSkipReset := fun _ => 0
      portResumeMask := ∅
      portReenumerateMask := ∅ }.Addressed :=
    addressed.of_devices rfl
  have looped := forLoop_keeps (P := Addressed) (f := BceVhci.suspendPort env.setState) (n := 16) before
    fun i _ _ addressed => addressed.suspendPort _ i
  generalize forLoop 16 (BceVhci.suspendPort env.setState) _ = w at looped ⊢
  split
  · exact looped
  · exact looped.of_devices rfl

theorem Addressed.recoveryCancelAll (addressed : v.Addressed) : v.recoveryCancelAll.Addressed := by
  refine forLoop_keeps (P := Addressed) addressed fun i v _ addressed => ?_
  unfold BceVhci.recoveryCancelPort
  dsimp only
  split
  · exact addressed.of_devices rfl
  split
  · exact addressed.of_devices rfl
  · rename_i dev found
    have before : dev.Addressed (v.portToDevice i) := addressed _ dev found
    obtain ⟨hcpriv, frame⟩ := (cancelQueues_cancelled ((v.use (.portToDevice i)).use
      (.devices (v.portToDevice i))) dev).frame
    exact addressed.put (by simp [frame])
      (before.cancelQueues ((v.use (.portToDevice i)).use (.devices (v.portToDevice i))))

theorem Addressed.recoverySignal (addressed : v.Addressed) : v.recoverySignal.Addressed := by
  refine forLoop_keeps (P := Addressed) addressed fun i w _ addressed => ?_
  split
  · exact addressed.of_devices rfl
  · exact addressed.of_devices rfl

theorem RefreshCase.addressed {torn : VhciDevice} {ep0 : Option UsbHostEndpoint} {env : ResumeEnv} {i : Nat}
    (refresh : RefreshCase v torn i ep0 env w) (addressed : v.Addressed)
    (idle : torn.Addressed env.create.dev.toNat) (clear : torn.tqMask = 0)
    (index : ∀ e, ep0 = some e → e.index = 0) :
    w.Addressed := by
  cases refresh with
  | gaveUp => exact addressed.of_devices rfl
  | faulted _ _ => exact addressed.put (by simp) idle
  | undone _ created => exact addressed.forget env.create.dev.toNat (by simp)
  | refreshed _ e q owner made =>
    have attached := idle.createSet e .bidirectional env.queue (index e owner)
    rw [VhciDevice.createQueue, made, clear] at attached
    exact addressed.put rfl attached

/-- A device that survived a suspend gets its control queue under the new id. -/
theorem Addressed.refreshPort (addressed : v.Addressed) (i : Nat) (env : ResumeEnv) (before : dev.Addressed devid) :
    (v.refreshPort i devid dev env).Addressed := by
  have torn := refresh_tornDown v dev
  obtain ⟨hcpriv, frame⟩ := torn.frame
  refine (v.refreshPort_cases i devid dev env).addressed ?_ ?_ rfl (before 0).index
  · exact addressed.forget devid (by simp [refreshTorn, frame])
  · refine VhciDevice.addressed_of_idle (torn.index before) fun j has => ?_
    simp [VhciDevice.hasQueue, VhciDevice.setMask] at has

theorem Addressed.resumePort (addressed : v.Addressed) (i : Nat) (env : ResumeEnv) :
    (v.resumePort i env).Addressed := by
  unfold BceVhci.resumePort
  dsimp only
  split
  · exact addressed.of_devices rfl
  split
  · exact addressed.of_devices rfl
  rename_i dev found
  have before : dev.Addressed (v.portToDevice i) := addressed _ dev found
  have looked : ((v.use (.portToDevice i)).use (.devices (v.portToDevice i))).Addressed := addressed.of_devices rfl
  split
  · exact looked.of_devices rfl
  split
  · exact looked.of_devices rfl
  split
  · have resumed := before.resumeQueues env.resume (List.range 32)
    have kept : (((v.use (.portToDevice i)).use (.devices (v.portToDevice i))).setDevice (v.portToDevice i)
        (some (dev.resumeQueues env.resume (List.range 32)).2)).Addressed :=
      looked.put (by simp) resumed
    split
    · exact kept
    · exact kept.refreshPort i env resumed
  · exact looked.refreshPort i env before

theorem Addressed.busResume (addressed : v.Addressed) (env : BusResumeEnv) : (v.busResume env).Addressed := by
  unfold BceVhci.busResume
  split
  · exact addressed
  split
  · exact addressed.of_devices rfl
  · have looped := forLoop_keeps (P := Addressed) (n := 16) (f := fun i v => v.resumePort i (env.port i)) addressed
      fun i _ _ addressed => addressed.resumePort i (env.port i)
    generalize forLoop 16 _ v = w at looped ⊢
    exact looped.of_devices rfl

theorem Addressed.portStatusChange (addressed : v.Addressed) (param1 : BitVec 32) :
    (v.portStatusChange param1).Addressed := by
  unfold BceVhci.portStatusChange
  dsimp only
  split
  · exact addressed
  split
  · exact addressed
  · exact addressed.of_devices rfl

/-- The queue that a message of the T2 is for. -/
def eventQueue (v : BceVhci) (param1 : BitVec 32) : Option BceVhciTransferQueue :=
  (v.devices (param1.setWidth 8).toNat).bind fun dev =>
    (dev.tq (bceVhciEndpointIndex ((param1 >>> 8).setWidth 8)).toNat).queue

/-- A message of the T2 lets the transfer queue it is for take steps of its own. -/
def TransferRuns (v : BceVhci) : VhciStep → Prop
  | .queueEvent param1 after => ∀ q, v.eventQueue param1 = some q →
    ∃ s t as, s.q = q ∧ TransferRun.machine.run s as = some t ∧ t.q = after
  | _ => True

theorem Addressed.queueEvent {param1 : BitVec 32} {after : BceVhciTransferQueue} (addressed : v.Addressed)
    (runs : v.TransferRuns (.queueEvent param1 after)) : (v.queueEvent param1 after).Addressed := by
  unfold BceVhci.queueEvent
  dsimp only
  split
  · exact addressed
  split
  · exact addressed.of_devices rfl
  rename_i dev found
  have found : v.devices (param1.setWidth 8).toNat = some dev := found
  split
  · rename_i exists_
    obtain ⟨q, live⟩ := Option.isSome_iff_exists.mp exists_.2
    obtain ⟨s, t, as, begins, ran, ends⟩ := runs q (by rw [eventQueue, found, Option.bind_some, live])
    have same : q.SameAddress after := begins ▸ ends ▸ TransferRun.run_sameAddress as ran
    refine addressed.put rfl ((addressed _ dev found).work ?_)
    intro r now
    cases now
    exact ⟨q, live, same⟩
  · exact addressed.of_devices rfl

theorem Addressed.step {a : VhciStep} (addressed : v.Addressed) (runs : v.TransferRuns a)
    (run : v.step a = some w) :
    w.Addressed := by
  cases a with
  | hubControl request wIndex wLength env =>
    cases Option.some.inj run
    exact addressed.hubControl request wIndex wLength env
  | enableDevice udev env =>
    cases (Option.ite_none_right_eq_some.mp run).2
    exact addressed.enableDevice udev env
  | freeDevice udev released =>
    cases (Option.ite_none_right_eq_some.mp run).2
    exact addressed.freeDevice udev released
  | addEndpoint endp queue create =>
    cases (Option.ite_none_right_eq_some.mp run).2
    exact addressed.addEndpoint endp queue create
  | dropEndpoint endp =>
    cases (Option.ite_none_right_eq_some.mp run).2
    exact addressed.dropEndpoint endp
  | busSuspend env =>
    cases Option.some.inj run
    exact addressed.busSuspend env
  | busResume env =>
    cases Option.some.inj run
    exact addressed.busResume env
  | resumePort i env =>
    cases (Option.ite_none_right_eq_some.mp run).2
    exact addressed.resumePort i env
  | recoveryCancelAll =>
    cases Option.some.inj run
    exact addressed.recoveryCancelAll
  | recoverySignal =>
    cases Option.some.inj run
    exact addressed.recoverySignal
  | portStatusChange param1 =>
    cases Option.some.inj run
    exact addressed.portStatusChange param1
  | queueEvent param1 after =>
    cases Option.some.inj run
    exact addressed.queueEvent runs

theorem addressed_of_reach (reach : machine.ReachableUnder TransferRuns v) : v.Addressed := by
  refine reach.invariant (I := Addressed) ?_ fun _ _ _ addressed runs run => addressed.step runs run
  rintro _ ⟨portMask, rfl⟩ d dev found
  cases found

/-- In every run, through resets, resumes and recoveries that give devices new ids, the address a queue
carries is the id of its device and the index of its place; its requests and commands tell the T2 this
address, and a message that comes back with it gets to this very queue. -/
theorem queues_addressed (reach : machine.ReachableUnder TransferRuns v) {d j : Nat} (below : d < 16)
    {q : BceVhciTransferQueue} (found : v.devices d = some dev) (has : dev.hasQueue j)
    (live : (dev.tq j).queue = some q) :
    q.devAddr.toNat = d ∧ (bceVhciEndpointIndex q.endpAddr).toNat = j ∧
      (∀ len, (q.transferRequest len).param1 = bceVhciCmdEndpointParam1 q.devAddr q.endpAddr) ∧
      (∀ msg ∈ q.endpointCommands, msg.param1 = bceVhciCmdEndpointParam1 q.devAddr q.endpAddr) ∧
      ∀ after, v.queueEvent (bceVhciCmdEndpointParam1 q.devAddr q.endpAddr) after =
        (v.use (.devices d)).setDevice d (some (dev.setQueue j { dev.tq j with queue := some after })) := by
  obtain ⟨index, serves⟩ := addressed_of_reach reach d dev found j
  obtain ⟨e, owner, endp, devAddr, endpAddr⟩ := serves has q live
  have device : q.devAddr.toNat = d := by
    rw [devAddr, BitVec.toNat_ofNat, Nat.mod_eq_of_lt (by omega)]
  have place : (bceVhciEndpointIndex q.endpAddr).toNat = j := by
    rw [endpAddr, endpointIndex_masked]
    exact index e owner
  refine ⟨device, place, ?_, ?_, ?_⟩
  · intro len
    show _ ||| _ = _
    rw [bceVhciCmdEndpointParam1, BitVec.or_comm, endpAddr, endp]
  · exact fun msg sent => BceVhciTransferQueue.endpointCommands_param1 (by rw [endpAddr, endp]) sent
  · intro after
    unfold BceVhci.queueEvent
    dsimp only
    rw [cmdEndpointParam1_dev, cmdEndpointParam1_endpoint, device, place, if_neg (by omega)]
    simp only [use_devices, found, has, live, Option.isSome_some, and_self, if_true]

/-- No message of the T2 for a transfer queue. -/
def NoEvent : VhciStep → Bool
  | .queueEvent _ _ => false
  | _ => true

/-- A device with a bulk IN endpoint is created under id 1, and again under id 5 by a reset. -/
theorem queues_addressed_reset : ∃ v dev q, machine.ReachableUnder TransferRuns v ∧
    v.devices 5 = some dev ∧ (dev.tq 17).queue = some q ∧ q.devAddr = 5 ∧
    ∀ after, v.queueEvent (bceVhciCmdEndpointParam1 q.devAddr q.endpAddr) after =
      (v.use (.devices 5)).setDevice 5 (some (dev.setQueue 17 { dev.tq 17 with queue := some after })) := by
  have ran : (ranUnder (fun _ a => NoEvent a) 3 [.enableDevice sampleDevice (.created 1),
      .addEndpoint (sampleEndpoint 0) .plenty 0, .hubControl (.setPortFeature .reset) 1 0 (replies 5)]).map
      (fun v => (v.devices 5).bind fun dev => (dev.tq 17).queue.map fun q => (dev.hasQueue 17, q.devAddr)) =
        some (some (true, 5)) := by
    decide +kernel
  obtain ⟨v, reach, seen⟩ := reachableUnder_of_ran ran
  obtain ⟨dev, found, seen⟩ := Option.bind_eq_some_iff.mp seen
  obtain ⟨q, live, seen⟩ := Option.map_eq_some_iff.mp seen
  obtain ⟨has, devAddr⟩ := Prod.mk.inj seen
  have reach : machine.ReachableUnder TransferRuns v := by
    refine reach.mono fun v a quiet => ?_
    cases a with
    | queueEvent param1 after => cases quiet
    | _ => trivial
  exact ⟨v, dev, q, reach, found, live, devAddr, (queues_addressed reach (by decide) found has live).2.2.2.2⟩

end BceVhci

end AppleBce
