import AppleBce.Vhci.HubControl

namespace AppleBce

open Basis

namespace VhciDevice

variable {dev vdev last : VhciDevice} {endp e : UsbHostEndpoint} {port object j k : Nat} {tidy : Prop}

/-- `tq_mask` has the bits of the queues there are. -/
def Live (dev : VhciDevice) : Prop :=
  ∀ j, dev.hasQueue j = (dev.tq j).queue.isSome

/-- The queues of the device are those of endpoints of the device on a port. -/
structure Belongs (dev : VhciDevice) (port : Nat) : Prop where
  endp : ∀ j, dev.hasQueue j → ∃ e, (dev.tq j).endp = some e ∧ e.udev.portnum = port ∧ e.index = j
  ep0 : ∃ e, (dev.tq 0).endp = some e ∧ e.udev.portnum = port ∧ e.index = 0

/-- The `hcpriv` of an endpoint is a queue of the device that was created for the endpoint. -/
structure Points (dev : VhciDevice) (endp : UsbHostEndpoint) (object j : Nat) : Prop where
  object : dev.object = object
  index : endp.index = j
  hasQueue : dev.hasQueue j
  endp : (dev.tq j).endp = some endp

@[simp] theorem setQueue_tqMask (dev : VhciDevice) (j : Nat) (queue : DeviceQueue) :
    (dev.setQueue j queue).tqMask = dev.tqMask := rfl

@[simp] theorem setQueue_object (dev : VhciDevice) (j : Nat) (queue : DeviceQueue) :
    (dev.setQueue j queue).object = dev.object := rfl

@[simp] theorem setQueue_hasQueue (dev : VhciDevice) (j k : Nat) (queue : DeviceQueue) :
    (dev.setQueue j queue).hasQueue k = dev.hasQueue k := rfl

@[simp] theorem setQueue_self (dev : VhciDevice) (j : Nat) (queue : DeviceQueue) :
    (dev.setQueue j queue).tq j = queue :=
  Function.update_self ..

theorem setQueue_other (dev : VhciDevice) (queue : DeviceQueue) (apart : k ≠ j) :
    (dev.setQueue j queue).tq k = dev.tq k :=
  Function.update_of_ne apart ..

@[simp] theorem setMask_tq (dev : VhciDevice) (mask : BitVec 32) : (dev.setMask mask).tq = dev.tq := rfl

@[simp] theorem setMask_object (dev : VhciDevice) (mask : BitVec 32) : (dev.setMask mask).object = dev.object := rfl

theorem hasQueue_lt (bit : dev.hasQueue j) : j < 32 :=
  BitVec.lt_of_getLsbD bit

theorem hasQueue_set (dev : VhciDevice) (below : j < 32) (k : Nat) :
    (dev.setMask (dev.tqMask ||| tqBit j)).hasQueue k = (dev.hasQueue k || decide (k = j)) := by
  simp only [hasQueue, setMask, tqBit, BitVec.getLsbD_or, BitVec.getLsbD_twoPow, below, decide_true,
    Bool.true_and, eq_comm]

theorem hasQueue_clear (dev : VhciDevice) (j k : Nat) :
    (dev.setMask (dev.tqMask &&& ~~~tqBit j)).hasQueue k = (dev.hasQueue k && decide (k ≠ j)) := by
  by_cases below : k < 32
  · simp only [hasQueue, setMask, tqBit, BitVec.getLsbD_and, BitVec.getLsbD_not, BitVec.getLsbD_twoPow,
      below, decide_true, Bool.true_and]
    by_cases same : k = j
    · subst same
      simp [below]
    · simp [same, Ne.symm same]
  · have absent : dev.tqMask.getLsbD k = false := BitVec.getLsbD_of_ge _ _ (Nat.le_of_not_lt below)
    simp [hasQueue, setMask, absent]

/-- The mask of a device with its control endpoint alone. -/
theorem hasQueue_ep0 {mask : BitVec 32} (only : mask = tqBit 0) (j : Nat) :
    (dev.setMask mask).hasQueue j = decide (j = 0) := by
  rw [only, hasQueue, setMask, tqBit, BitVec.getLsbD_twoPow]
  simp [eq_comm]

/-- A device loses queues or bits at most. -/
structure Kept (dev vdev : VhciDevice) : Prop where
  object : vdev.object = dev.object
  endp : ∀ j, (vdev.tq j).endp = (dev.tq j).endp
  bits : ∀ j, vdev.hasQueue j → dev.hasQueue j

theorem Kept.refl (dev : VhciDevice) : dev.Kept dev :=
  ⟨rfl, fun _ => rfl, fun _ has => has⟩

theorem Kept.trans (first : dev.Kept vdev) (second : vdev.Kept last) : dev.Kept last where
  object := second.object.trans first.object
  endp := fun j => (second.endp j).trans (first.endp j)
  bits := fun j has => first.bits j (second.bits j has)

theorem kept_destroyQueue (dev : VhciDevice) (j : Nat) : dev.Kept (dev.destroyQueue j) := by
  refine ⟨rfl, fun k => ?_, fun _ has => has⟩
  by_cases same : k = j
  · rw [same, destroyQueue, setQueue_self]
  · rw [destroyQueue, setQueue_other _ _ same]

theorem kept_clear (dev : VhciDevice) (j : Nat) : dev.Kept (dev.setMask (dev.tqMask &&& ~~~tqBit j)) := by
  refine ⟨rfl, fun _ => rfl, fun k has => ?_⟩
  rw [hasQueue_clear, Bool.and_eq_true] at has
  exact has.1

theorem Kept.belongs (kept : dev.Kept vdev) (belongs : dev.Belongs port) : vdev.Belongs port where
  endp := by
    intro j has
    rw [kept.endp]
    exact belongs.endp j (kept.bits j has)
  ep0 := by
    rw [kept.endp]
    exact belongs.ep0

/-- The queue of an endpoint of the device is there from now on, or the element of `tq` is left
without one. -/
theorem Belongs.put {queue : Option BceVhciTransferQueue} (belongs : dev.Belongs port) (live : tidy → dev.Live)
    (here : endp.udev.portnum = port)
    (tq : vdev.tq = Function.update dev.tq endp.index ⟨some endp, queue⟩)
    (bits : ∀ j, vdev.hasQueue j = if j = endp.index then queue.isSome else dev.hasQueue j) :
    vdev.Belongs port ∧ (tidy → vdev.Live) := by
  refine ⟨⟨?_, ?_⟩, ?_⟩
  · intro j has
    by_cases same : j = endp.index
    · rw [tq, same, Function.update_self]
      exact ⟨endp, rfl, here, rfl⟩
    · rw [bits, if_neg same] at has
      rw [tq, Function.update_of_ne same]
      exact belongs.endp j has
  · by_cases same : endp.index = 0
    · rw [tq, same, Function.update_self]
      exact ⟨endp, rfl, here, same⟩
    · rw [tq, Function.update_of_ne (Ne.symm same)]
      exact belongs.ep0
  · intro holds j
    rw [bits, tq]
    by_cases same : j = endp.index
    · rw [if_pos same, same, Function.update_self]
    · rw [if_neg same, Function.update_of_ne same]
      exact live holds j

/-- The pointers to the other queues of the device are good as before. -/
theorem Points.other {queue : DeviceQueue} {e : UsbHostEndpoint} (points : dev.Points e object j)
    (apart : j ≠ k) (same : vdev.object = dev.object) (tq : vdev.tq = Function.update dev.tq k queue)
    (bit : vdev.hasQueue j = dev.hasQueue j) : vdev.Points e object j where
  object := same.trans points.object
  index := points.index
  hasQueue := bit.trans points.hasQueue
  endp := by
    rw [tq, Function.update_of_ne apart]
    exact points.endp

end VhciDevice

theorem bceVhciEndpointIndex_lt (addr : BitVec 8) : (bceVhciEndpointIndex addr).toNat < 32 := by
  have low : (addr &&& 0xf).toNat < 16 := by
    rw [BitVec.toNat_and]
    exact Nat.lt_of_le_of_lt Nat.and_le_right (by decide)
  unfold bceVhciEndpointIndex
  split
  · rw [BitVec.toNat_add]
    have base : (0x10 : BitVec 8).toNat = 16 := rfl
    omega
  · omega

theorem UsbHostEndpoint.index_lt (endp : UsbHostEndpoint) : endp.index < 32 :=
  bceVhciEndpointIndex_lt _

theorem UsbDevice.ep0_index (udev : UsbDevice) : udev.ep0.index = 0 := by
  show (bceVhciEndpointIndex 0).toNat = 0
  decide

namespace T2Devices

variable {t2 : T2Devices} {devid d : Nat} {released : Bool}

theorem create_honest (honest : (t2.create devid).honest) :
    t2.honest ∧ 1 ≤ devid ∧ devid ≤ 15 ∧ t2.held devid = false := by
  simpa [create, and_assoc] using honest

@[simp] theorem create_held_self : (t2.create devid).held devid = true :=
  Function.update_self ..

theorem create_held (held : t2.held d) : (t2.create devid).held d := by
  by_cases same : d = devid
  · rw [same, create_held_self]
  · exact (Function.update_of_ne same ..).trans held

@[simp] theorem destroy_honest : (t2.destroy devid released).honest = t2.honest := by
  cases released <;> rfl

theorem destroy_held (apart : d ≠ devid) : (t2.destroy devid released).held d = t2.held d := by
  cases released
  · rfl
  · exact Function.update_of_ne apart ..

end T2Devices

namespace BceVhci

variable {v w : BceVhci} {dev vdev : VhciDevice} {endp : UsbHostEndpoint} {udev : UsbDevice} {p devid : Nat}
variable {tidy : Prop}

/-- The device a port is mapped to. -/
def mapped (v : BceVhci) (port : Nat) : Option VhciDevice :=
  v.devices (v.portToDevice port)

/-- The port map and the device table fit each other and what the T2 holds. -/
structure MapOk (v : BceVhci) : Prop where
  named : ∀ p, v.portToDevice p ≠ 0 → (v.mapped p).isSome
  apart : ∀ p q, v.portToDevice p ≠ 0 → v.portToDevice p = v.portToDevice q → p = q
  owned : ∀ d dev, v.devices d = some dev → d ≠ 0 ∧ d ≤ 15 ∧ v.t2.held d ∧ ∃ p, v.portToDevice p = d
  object : ∀ d dev, v.devices d = some dev → dev.object < v.objects
  unique : ∀ d e dev other, v.devices d = some dev → v.devices e = some other →
    dev.object = other.object → d = e

/-- The queues of a mapped device are those of endpoints on its port. Where endpoints have been added
and dropped at their own queues only, the queues are live for the bits of the mask, and every
`hcpriv` is a queue of the device of its endpoint. -/
structure Inv (v : BceVhci) (tidy : Prop) : Prop where
  maps : v.MapOk
  queues : ∀ p dev, v.mapped p = some dev → dev.Belongs p ∧ (tidy → dev.Live)
  pointers : tidy → ∀ e o j, v.hcpriv e = some (o, j) →
    ∃ dev, v.mapped e.udev.portnum = some dev ∧ dev.Points e o j

/-- All that happens to the map is that a port gets a device, loses it or has another one. -/
structure Remaps (v w : BceVhci) (p : Nat) (now : Option VhciDevice) : Prop where
  maps : w.MapOk
  own : w.mapped p = now
  others : ∀ q, q ≠ p → w.mapped q = v.mapped q

theorem MapOk.null (ok : v.MapOk) : v.devices 0 = none := by
  cases held : v.devices 0 with
  | none => rfl
  | some dev => exact absurd rfl (ok.owned 0 dev held).1

theorem MapOk.port_ne_zero (ok : v.MapOk) (held : v.mapped p = some dev) : v.portToDevice p ≠ 0 :=
  (ok.owned _ _ held).1

theorem MapOk.unmap (ok : v.MapOk) (held : v.mapped p = some dev)
    (ports : w.portToDevice = Function.update v.portToDevice p 0)
    (devices : w.devices = Function.update v.devices (v.portToDevice p) none)
    (t2 : ∀ d, d ≠ v.portToDevice p → w.t2.held d = v.t2.held d) (objects : w.objects = v.objects) :
    v.Remaps w p none := by
  have mapped := ok.port_ne_zero held
  have device : ∀ {d dev}, w.devices d = some dev → d ≠ v.portToDevice p ∧ v.devices d = some dev := by
    intro d dev found
    rw [devices] at found
    by_cases same : d = v.portToDevice p
    · rw [same, Function.update_self] at found
      cases found
    · rw [Function.update_of_ne same] at found
      exact ⟨same, found⟩
  have port : ∀ {q}, q ≠ p → w.portToDevice q = v.portToDevice q := by
    intro q apart
    rw [ports, Function.update_of_ne apart]
  have gone : w.portToDevice p = 0 := by
    rw [ports, Function.update_self]
  have own : w.mapped p = none := by
    rw [BceVhci.mapped, gone, devices, Function.update_of_ne mapped.symm]
    exact ok.null
  have others : ∀ q, q ≠ p → w.mapped q = v.mapped q := by
    intro q apart
    rw [BceVhci.mapped, port apart, devices, BceVhci.mapped]
    by_cases zero : v.portToDevice q = 0
    · rw [zero, Function.update_of_ne mapped.symm]
    · rw [Function.update_of_ne fun same => apart (ok.apart q p zero same)]
  refine ⟨⟨?_, ?_, ?_, ?_, ?_⟩, own, others⟩
  · intro q named
    have apart : q ≠ p := fun same => named (same ▸ gone)
    rw [others q apart]
    rw [port apart] at named
    exact ok.named q named
  · intro q r named same
    have apart : q ≠ p := fun same => named (same ▸ gone)
    have apart' : r ≠ p := fun here => named (same.trans (here ▸ gone))
    rw [port apart] at named same
    rw [port apart'] at same
    exact ok.apart q r named same
  · intro d dev found
    obtain ⟨other, found⟩ := device found
    obtain ⟨nonzero, range, kept, q, named⟩ := ok.owned d dev found
    refine ⟨nonzero, range, (t2 d other).trans kept, q, ?_⟩
    have apart : q ≠ p := fun same => other (same ▸ named).symm
    rw [port apart, named]
  · intro d dev found
    rw [objects]
    exact ok.object d dev (device found).2
  · intro d e dev other found found'
    exact ok.unique d e dev other (device found).2 (device found').2

theorem MapOk.map (ok : v.MapOk) (free : v.portToDevice p = 0) (range : 1 ≤ devid ∧ devid ≤ 15)
    (fresh : v.t2.held devid = false) (ports : w.portToDevice = Function.update v.portToDevice p devid)
    (devices : w.devices = Function.update v.devices devid (some dev)) (t2 : w.t2 = v.t2.create devid)
    (objects : v.objects ≤ w.objects) (object : dev.object < w.objects)
    (new : ∀ d other, v.devices d = some other → other.object ≠ dev.object) :
    v.Remaps w p (some dev) := by
  have unused : v.devices devid = none := by
    cases found : v.devices devid with
    | none => rfl
    | some other => cases fresh.symm.trans (ok.owned devid other found).2.2.1
  have unnamed : ∀ q, v.portToDevice q ≠ devid := by
    intro q same
    have named := ok.named q (by omega)
    rw [BceVhci.mapped, same, unused] at named
    cases named
  have device : ∀ {d found}, w.devices d = some found →
      (d = devid ∧ found = dev) ∨ (d ≠ devid ∧ v.devices d = some found) := by
    intro d found at_
    rw [devices] at at_
    by_cases same : d = devid
    · rw [same, Function.update_self] at at_
      exact .inl ⟨same, (Option.some.inj at_).symm⟩
    · rw [Function.update_of_ne same] at at_
      exact .inr ⟨same, at_⟩
  have port : ∀ {q}, q ≠ p → w.portToDevice q = v.portToDevice q := by
    intro q apart
    rw [ports, Function.update_of_ne apart]
  have here : w.portToDevice p = devid := by
    rw [ports, Function.update_self]
  have own : w.mapped p = some dev := by
    rw [BceVhci.mapped, here, devices, Function.update_self]
  have others : ∀ q, q ≠ p → w.mapped q = v.mapped q := by
    intro q apart
    rw [BceVhci.mapped, port apart, devices, Function.update_of_ne (unnamed q)]
    rfl
  refine ⟨⟨?_, ?_, ?_, ?_, ?_⟩, own, others⟩
  · intro q named
    by_cases same : q = p
    · rw [same, own]
      rfl
    · rw [others q same]
      rw [port same] at named
      exact ok.named q named
  · intro q r named same
    by_cases atQ : q = p <;> by_cases atR : r = p
    · rw [atQ, atR]
    · rw [atQ, here, port atR] at same
      exact absurd same.symm (unnamed r)
    · rw [atR, here, port atQ] at same
      exact absurd same (unnamed q)
    · rw [port atQ] at named same
      rw [port atR] at same
      exact ok.apart q r named same
  · intro d found at_
    rw [t2]
    rcases device at_ with ⟨rfl, rfl⟩ | ⟨apart, old⟩
    · exact ⟨by omega, range.2, T2Devices.create_held_self, p, here⟩
    · obtain ⟨nonzero, range, held, q, named⟩ := ok.owned d found old
      refine ⟨nonzero, range, T2Devices.create_held held, q, ?_⟩
      have elsewhere : q ≠ p := fun same => nonzero (named.symm.trans (same ▸ free))
      rw [port elsewhere, named]
  · intro d found at_
    rcases device at_ with ⟨rfl, rfl⟩ | ⟨apart, old⟩
    · exact object
    · exact (ok.object d found old).trans_le objects
  · intro d e found other at_ at' same
    rcases device at_ with ⟨rfl, rfl⟩ | ⟨apart, old⟩
    · rcases device at' with ⟨rfl, rfl⟩ | ⟨apart', old'⟩
      · rfl
      · exact absurd same.symm (new e other old')
    · rcases device at' with ⟨rfl, rfl⟩ | ⟨apart', old'⟩
      · exact absurd same (new d found old)
      · exact ok.unique d e found other old old' same

theorem MapOk.replace (ok : v.MapOk) (held : v.mapped p = some dev) (ports : w.portToDevice = v.portToDevice)
    (devices : w.devices = Function.update v.devices (v.portToDevice p) (some vdev))
    (t2 : w.t2.held = v.t2.held) (objects : w.objects = v.objects) (object : vdev.object = dev.object) :
    v.Remaps w p (some vdev) := by
  have mapped := ok.port_ne_zero held
  have device : ∀ {d found}, w.devices d = some found →
      ∃ old, v.devices d = some old ∧ found.object = old.object := by
    intro d found at_
    rw [devices] at at_
    by_cases same : d = v.portToDevice p
    · rw [same, Function.update_self] at at_
      cases at_
      exact ⟨dev, same ▸ held, object⟩
    · rw [Function.update_of_ne same] at at_
      exact ⟨found, at_, rfl⟩
  have own : w.mapped p = some vdev := by
    rw [BceVhci.mapped, ports, devices, Function.update_self]
  have others : ∀ q, q ≠ p → w.mapped q = v.mapped q := by
    intro q apart
    rw [BceVhci.mapped, ports, devices]
    by_cases zero : v.portToDevice q = 0
    · rw [BceVhci.mapped, zero, Function.update_of_ne mapped.symm]
    · rw [Function.update_of_ne fun same => apart (ok.apart q p zero same)]
      rfl
  refine ⟨⟨?_, ?_, ?_, ?_, ?_⟩, own, others⟩
  · intro q named
    by_cases same : q = p
    · rw [same, own]
      rfl
    · rw [others q same]
      rw [ports] at named
      exact ok.named q named
  · rw [ports]
    exact ok.apart
  · intro d found at_
    obtain ⟨old, before, -⟩ := device at_
    rw [t2, ports]
    exact ok.owned d old before
  · intro d found at_
    obtain ⟨old, before, same⟩ := device at_
    rw [objects, same]
    exact ok.object d old before
  · intro d e found other at_ at' same
    obtain ⟨old, before, object⟩ := device at_
    obtain ⟨old', before', object'⟩ := device at'
    exact ok.unique d e old old' before before' (object.symm.trans (same.trans object'))

/-- What a change at one port has to meet. -/
theorem Inv.remap {now : Option VhciDevice} (inv : v.Inv tidy) (remaps : v.Remaps w p now)
    (own : ∀ dev, now = some dev → dev.Belongs p ∧ (tidy → dev.Live))
    (pointers : tidy → ∀ e o j, w.hcpriv e = some (o, j) → (e.udev.portnum ≠ p ∧ v.hcpriv e = some (o, j)) ∨
      (e.udev.portnum = p ∧ ∃ dev, now = some dev ∧ dev.Points e o j)) : w.Inv tidy where
  maps := remaps.maps
  queues := by
    intro q dev mapped
    by_cases same : q = p
    · rw [same, remaps.own] at mapped
      rw [same]
      exact own dev mapped
    · rw [remaps.others q same] at mapped
      exact inv.queues q dev mapped
  pointers := by
    intro holds e o j pointer
    rcases pointers holds e o j pointer with ⟨apart, old⟩ | ⟨here, dev, now, points⟩
    · rw [remaps.others _ apart]
      exact inv.pointers holds e o j old
    · rw [here, remaps.own]
      exact ⟨dev, now, points⟩

@[simp] theorem setHcpriv_self {pointer : Option (Nat × Nat)} : (v.setHcpriv endp pointer).hcpriv endp = pointer :=
  Function.update_self ..

theorem setHcpriv_other {pointer : Option (Nat × Nat)} {e : UsbHostEndpoint} (apart : e ≠ endp) :
    (v.setHcpriv endp pointer).hcpriv e = v.hcpriv e :=
  Function.update_of_ne apart ..

/-- The queues of a device below `k` have been torn down. -/
structure TornDown (v : BceVhci) (dev : VhciDevice) (k : Nat) (s : BceVhci × VhciDevice) : Prop where
  frame : ∃ hcpriv, s.1 = { v with hcpriv }
  hcpriv : ∀ e pointer, s.1.hcpriv e = some pointer → v.hcpriv e = some pointer
  cleared : ∀ e j, j < k → dev.hasQueue j → (dev.tq j).endp = some e → s.1.hcpriv e = none
  tqMask : s.2.tqMask = dev.tqMask
  object : s.2.object = dev.object
  endp : ∀ j, (s.2.tq j).endp = (dev.tq j).endp
  destroyed : ∀ j, j < k → dev.hasQueue j → (s.2.tq j).queue = none
  others : ∀ j, dev.hasQueue j = false → (s.2.tq j).queue = (dev.tq j).queue
  foreign : ∀ e, (∀ j, dev.hasQueue j → (dev.tq j).endp ≠ some e) → s.1.hcpriv e = v.hcpriv e

theorem tornDown_start (v : BceVhci) (dev : VhciDevice) : TornDown v dev 0 (v, dev) where
  frame := ⟨v.hcpriv, rfl⟩
  hcpriv := fun _ _ pointer => pointer
  cleared := nofun
  tqMask := rfl
  object := rfl
  endp := fun _ => rfl
  destroyed := nofun
  others := fun _ _ => rfl
  foreign := fun _ _ => rfl

theorem TornDown.hasQueue {s : BceVhci × VhciDevice} {k : Nat} (torn : TornDown v dev k s) (j : Nat) :
    s.2.hasQueue j = dev.hasQueue j :=
  congrArg (BitVec.getLsbD · j) torn.tqMask

/-- The pointer of the endpoint of a queue is cleared, and the queue cancelled or destroyed. -/
theorem TornDown.clear {s : BceVhci × VhciDevice} {k m : Nat} {queue : Option BceVhciTransferQueue}
    (torn : TornDown v dev k s) (has : dev.hasQueue k) (bound : m ≤ k ∨ m = k + 1 ∧ queue = none) :
    TornDown v dev m (s.1.clearHcpriv (s.2.tq k).endp, s.2.setQueue k { s.2.tq k with queue }) := by
  obtain ⟨hcpriv, frame⟩ := torn.frame
  have endp : ∀ j, ((s.2.setQueue k { s.2.tq k with queue }).tq j).endp = (dev.tq j).endp := by
    intro j
    by_cases same : j = k
    · rw [same, VhciDevice.setQueue_self]
      exact torn.endp k
    · rw [VhciDevice.setQueue_other _ _ same]
      exact torn.endp j
  have destroyed : ∀ j, j < m → dev.hasQueue j → ((s.2.setQueue k { s.2.tq k with queue }).tq j).queue = none := by
    intro j below has'
    by_cases same : j = k
    · rw [same, VhciDevice.setQueue_self]
      exact (bound.resolve_left (by omega)).2
    · rw [VhciDevice.setQueue_other _ _ same]
      exact torn.destroyed j (by omega) has'
  have others : ∀ j, dev.hasQueue j = false →
      ((s.2.setQueue k { s.2.tq k with queue }).tq j).queue = (dev.tq j).queue := by
    intro j absent
    have apart : j ≠ k := fun same => Bool.false_ne_true (absent.symm.trans (same ▸ has))
    rw [VhciDevice.setQueue_other _ _ apart]
    exact torn.others j absent
  rw [torn.endp k]
  cases owner : (dev.tq k).endp with
  | none =>
    refine ⟨⟨hcpriv, frame⟩, torn.hcpriv, ?_, torn.tqMask, torn.object, endp, destroyed, others, torn.foreign⟩
    intro e j below has' found
    by_cases same : j = k
    · rw [same, owner] at found
      cases found
    · exact torn.cleared e j (by omega) has' found
  | some e =>
    refine ⟨⟨Function.update hcpriv e none, ?_⟩, ?_, ?_, torn.tqMask, torn.object, endp, destroyed, others, ?_⟩
    · show s.1.setHcpriv e none = _
      rw [frame]
      rfl
    · intro e' pointer (kept : (s.1.setHcpriv e none).hcpriv e' = some pointer)
      by_cases same : e' = e
      · rw [same, setHcpriv_self] at kept
        cases kept
      · rw [setHcpriv_other same] at kept
        exact torn.hcpriv e' pointer kept
    · intro e' j below has' found
      show (s.1.setHcpriv e none).hcpriv e' = none
      by_cases same : e' = e
      · rw [same, setHcpriv_self]
      · have apart : j ≠ k := by
          rintro rfl
          exact same (Option.some.inj (found.symm.trans owner))
        rw [setHcpriv_other same]
        exact torn.cleared e' j (by omega) has' found
    · intro e' foreign
      have apart : e' ≠ e := fun same => foreign k has (same ▸ owner)
      exact (setHcpriv_other apart).trans (torn.foreign e' foreign)

theorem TornDown.skip {s : BceVhci × VhciDevice} {k : Nat} (torn : TornDown v dev k s)
    (absent : ¬dev.hasQueue k) : TornDown v dev (k + 1) s := by
  have lower : ∀ {j}, j < k + 1 → dev.hasQueue j → j < k := by
    intro j below has
    have apart : j ≠ k := fun same => absent (same ▸ has)
    omega
  exact ⟨torn.frame, torn.hcpriv, fun e j below has => torn.cleared e j (lower below has) has, torn.tqMask,
    torn.object, torn.endp, fun j below has => torn.destroyed j (lower below has) has, torn.others,
    torn.foreign⟩

theorem TornDown.round {s : BceVhci × VhciDevice} {k : Nat} (torn : TornDown v dev k s) :
    TornDown v dev (k + 1) (tearDownQueue k s) := by
  unfold tearDownQueue
  rw [torn.hasQueue]
  split
  · rename_i has
    exact torn.clear has (.inr ⟨rfl, rfl⟩)
  · rename_i absent
    exact torn.skip absent

theorem TornDown.cancel {s : BceVhci × VhciDevice} {k : Nat} (torn : TornDown v dev k s) :
    TornDown v dev k (cancelQueue k s) := by
  unfold cancelQueue
  rw [torn.hasQueue]
  split
  · rename_i has
    exact torn.clear has (.inl le_rfl)
  · exact torn

theorem tearDownQueues_tornDown (v : BceVhci) (dev : VhciDevice) :
    TornDown v dev 32 (v.tearDownQueues dev) :=
  forLoop_invariant (tornDown_start v dev) fun _ _ _ torn => torn.round

theorem refresh_tornDown (v : BceVhci) (dev : VhciDevice) :
    TornDown v dev 32 (forLoop 32 refreshQueue (v, dev)) :=
  forLoop_invariant (tornDown_start v dev) fun _ _ _ torn => torn.cancel.round

/-- The map stays, and no pointer is new. -/
theorem Inv.of_kept (inv : v.Inv tidy) (ports : w.portToDevice = v.portToDevice) (devices : w.devices = v.devices)
    (held : ∀ d, v.t2.held d → w.t2.held d) (objects : v.objects ≤ w.objects)
    (kept : ∀ e pointer, w.hcpriv e = some pointer → v.hcpriv e = some pointer) : w.Inv tidy := by
  have mapped : w.mapped = v.mapped := by
    funext q
    rw [BceVhci.mapped, BceVhci.mapped, ports, devices]
  refine ⟨⟨?_, ?_, ?_, ?_, ?_⟩, ?_, ?_⟩
  · rw [mapped, ports]
    exact inv.maps.named
  · rw [ports]
    exact inv.maps.apart
  · intro d dev found
    rw [devices] at found
    rw [ports]
    obtain ⟨nonzero, range, kept, named⟩ := inv.maps.owned d dev found
    exact ⟨nonzero, range, held d kept, named⟩
  · intro d dev found
    rw [devices] at found
    exact (inv.maps.object d dev found).trans_le objects
  · rw [devices]
    exact inv.maps.unique
  · rw [mapped]
    exact inv.queues
  · rw [mapped]
    exact fun holds e o j pointer => inv.pointers holds e o j (kept e _ pointer)

theorem Inv.of_same (inv : v.Inv tidy) (ports : w.portToDevice = v.portToDevice) (devices : w.devices = v.devices)
    (held : ∀ d, v.t2.held d → w.t2.held d) (objects : v.objects ≤ w.objects) (hcpriv : w.hcpriv = v.hcpriv) :
    w.Inv tidy :=
  inv.of_kept ports devices held objects fun _ _ pointer => hcpriv ▸ pointer

/-- A device that has been torn down leaves the tables. -/
theorem Inv.unmap (inv : v.Inv tidy) (held : v.mapped p = some dev)
    (ports : w.portToDevice = Function.update v.portToDevice p 0)
    (devices : w.devices = Function.update v.devices (v.portToDevice p) none)
    (t2 : ∀ d, d ≠ v.portToDevice p → w.t2.held d = v.t2.held d) (objects : w.objects = v.objects)
    (kept : ∀ e pointer, w.hcpriv e = some pointer → v.hcpriv e = some pointer)
    (cleared : ∀ e j, dev.hasQueue j → (dev.tq j).endp = some e → w.hcpriv e = none) : w.Inv tidy := by
  refine inv.remap (inv.maps.unmap held ports devices t2 objects) nofun ?_
  intro holds e o j pointer
  have before := kept e _ pointer
  refine .inl ⟨?_, before⟩
  intro here
  obtain ⟨dev', mapped, points⟩ := inv.pointers holds e o j before
  rw [here, held] at mapped
  cases mapped
  cases (cleared e j points.hasQueue points.endp).symm.trans pointer

/-- No other device is the allocation that a port loses. -/
theorem MapOk.unmap_new (ok : v.MapOk) (held : v.mapped p = some dev) (d : Nat) (other : VhciDevice)
    (found : Function.update v.devices (v.portToDevice p) none d = some other) : other.object ≠ dev.object := by
  intro same
  by_cases here : d = v.portToDevice p
  · rw [here, Function.update_self] at found
    cases found
  · rw [Function.update_of_ne here] at found
    exact here (ok.unique d _ other dev found held same)

/-- A device that has been torn down is still that of its port, without a queue. -/
theorem TornDown.belongs {s : BceVhci × VhciDevice} (torn : TornDown v dev 32 s) (belongs : dev.Belongs p)
    (live : tidy → dev.Live) : s.2.Belongs p ∧ (tidy → ∀ j, (s.2.tq j).queue = none) := by
  refine ⟨⟨?_, ?_⟩, ?_⟩
  · intro j has
    rw [torn.hasQueue] at has
    rw [torn.endp]
    exact belongs.endp j has
  · rw [torn.endp]
    exact belongs.ep0
  · intro holds j
    by_cases has : dev.hasQueue j
    · exact torn.destroyed j (VhciDevice.hasQueue_lt has) has
    · rw [torn.others j (Bool.eq_false_iff.mpr has)]
      have absent := live holds j
      rw [Bool.eq_false_iff.mpr has] at absent
      exact Option.isNone_iff_eq_none.mp (by rw [← Option.not_isSome, ← absent]; rfl)

/-- The queues of a device below `k` have been created again, or their bits cleared. -/
structure Recreated (tidy : Prop) (v : BceVhci) (dev : VhciDevice) (k : Nat) (s : BceVhci × VhciDevice) : Prop where
  frame : ∃ hcpriv, s.1 = { v with hcpriv }
  object : s.2.object = dev.object
  endp : ∀ j, (s.2.tq j).endp = (dev.tq j).endp
  bits : ∀ j, s.2.hasQueue j → dev.hasQueue j
  rest : ∀ j, k ≤ j → s.2.hasQueue j = dev.hasQueue j ∧ (tidy → (s.2.tq j).queue = none)
  live : tidy → ∀ j, j < k → s.2.hasQueue j = (s.2.tq j).queue.isSome
  pointers : ∀ e o j, s.1.hcpriv e = some (o, j) → v.hcpriv e = some (o, j) ∨ (j < k ∧ s.2.Points e o j)

theorem recreated_start (idle : tidy → ∀ j, (dev.tq j).queue = none) : Recreated tidy v dev 0 (v, dev) where
  frame := ⟨v.hcpriv, rfl⟩
  object := rfl
  endp := fun _ => rfl
  bits := fun _ has => has
  rest := fun j _ => ⟨rfl, fun holds => idle holds j⟩
  live := nofun
  pointers := fun _ _ _ pointer => .inl pointer

/-- A queue that could be created again gets its pointer back. -/
theorem Recreated.made {s : BceVhci × VhciDevice} {k : Nat} {queue : BceVhciTransferQueue}
    (done : Recreated tidy v dev k s) (has : s.2.hasQueue k) (owner : (s.2.tq k).endp = some endp)
    (index : endp.index = k) :
    Recreated tidy v dev (k + 1)
      (s.1.setHcpriv endp (some (s.2.object, k)), s.2.setQueue k ⟨some endp, some queue⟩) := by
  obtain ⟨hcpriv, frame⟩ := done.frame
  refine ⟨⟨Function.update hcpriv endp (some (s.2.object, k)), ?_⟩, done.object, ?_, done.bits, ?_, ?_, ?_⟩
  · show s.1.setHcpriv endp _ = _
    rw [frame]
    rfl
  · intro j
    by_cases same : j = k
    · rw [same, VhciDevice.setQueue_self, ← done.endp, owner]
    · rw [VhciDevice.setQueue_other _ _ same]
      exact done.endp j
  · intro j above
    rw [VhciDevice.setQueue_other _ _ (by omega)]
    exact done.rest j (by omega)
  · intro holds j below
    rw [VhciDevice.setQueue_hasQueue]
    by_cases same : j = k
    · rw [same, has, VhciDevice.setQueue_self]
      rfl
    · rw [VhciDevice.setQueue_other _ _ same]
      exact done.live holds j (by omega)
  · intro e o j (pointer : (s.1.setHcpriv endp (some (s.2.object, k))).hcpriv e = some (o, j))
    by_cases same : e = endp
    · rw [same, setHcpriv_self] at pointer
      cases pointer
      rw [same]
      exact .inr ⟨k.lt_succ_self, rfl, index, has, congrArg DeviceQueue.endp (VhciDevice.setQueue_self ..)⟩
    · rw [setHcpriv_other same] at pointer
      rcases done.pointers e o j pointer with old | ⟨below, points⟩
      · exact .inl old
      · refine .inr ⟨by omega, points.object, points.index, points.hasQueue, ?_⟩
        rw [VhciDevice.setQueue_other _ _ (by omega)]
        exact points.endp

/-- A queue that could not be created again loses its bit. -/
theorem Recreated.lost {s : BceVhci × VhciDevice} {k : Nat} (done : Recreated tidy v dev k s)
    (owner : (s.2.tq k).endp = some endp) :
    Recreated tidy v dev (k + 1) (s.1.setHcpriv endp none,
      (s.2.setQueue k ⟨some endp, none⟩).setMask (s.2.tqMask &&& ~~~tqBit k)) := by
  obtain ⟨hcpriv, frame⟩ := done.frame
  have bits : ∀ j, ((s.2.setQueue k ⟨some endp, none⟩).setMask (s.2.tqMask &&& ~~~tqBit k)).hasQueue j =
      (s.2.hasQueue j && decide (j ≠ k)) :=
    VhciDevice.hasQueue_clear s.2 k
  have other : ∀ {j}, j ≠ k → ((s.2.setQueue k ⟨some endp, none⟩).setMask (s.2.tqMask &&& ~~~tqBit k)).hasQueue j =
      s.2.hasQueue j := by
    intro j apart
    rw [bits, decide_eq_true apart, Bool.and_true]
  refine ⟨⟨Function.update hcpriv endp none, ?_⟩, done.object, ?_, ?_, ?_, ?_, ?_⟩
  · show s.1.setHcpriv endp none = _
    rw [frame]
    rfl
  · intro j
    rw [VhciDevice.setMask_tq]
    by_cases same : j = k
    · rw [same, VhciDevice.setQueue_self, ← done.endp, owner]
    · rw [VhciDevice.setQueue_other _ _ same]
      exact done.endp j
  · intro j has
    rw [bits, Bool.and_eq_true] at has
    exact done.bits j has.1
  · intro j above
    rw [other (by omega), VhciDevice.setMask_tq, VhciDevice.setQueue_other _ _ (by omega)]
    exact done.rest j (by omega)
  · intro holds j below
    rw [VhciDevice.setMask_tq]
    by_cases same : j = k
    · rw [bits, same, VhciDevice.setQueue_self]
      simp only [ne_eq, not_true_eq_false, decide_false, Bool.and_false, Option.isSome_none]
    · rw [other same, VhciDevice.setQueue_other _ _ same]
      exact done.live holds j (by omega)
  · intro e o j (pointer : (s.1.setHcpriv endp none).hcpriv e = some (o, j))
    by_cases same : e = endp
    · rw [same, setHcpriv_self] at pointer
      cases pointer
    · rw [setHcpriv_other same] at pointer
      rcases done.pointers e o j pointer with old | ⟨below, points⟩
      · exact .inl old
      · refine .inr ⟨by omega, points.object, points.index, ?_, ?_⟩
        · rw [other (by omega)]
          exact points.hasQueue
        · rw [VhciDevice.setMask_tq, VhciDevice.setQueue_other _ _ (by omega)]
          exact points.endp

theorem Recreated.round {s : BceVhci × VhciDevice} {k : Nat} {env : Nat → QueueEnv}
    (done : Recreated tidy v dev k s) (belongs : dev.Belongs p) :
    Recreated tidy v dev (k + 1) (recreateQueue devid env k s) := by
  obtain ⟨bit, none⟩ := done.rest k le_rfl
  unfold recreateQueue
  by_cases has : s.2.hasQueue k
  · obtain ⟨e, owner, -, index⟩ := belongs.endp k (bit ▸ has)
    rw [← done.endp] at owner
    rw [if_pos has, owner]
    dsimp only [VhciDevice.createQueue]
    rw [VhciDevice.setQueue_self]
    cases bceVhciCreateTransferQueue e.desc (BitVec.ofNat 8 devid) _ (env k).memory (env k).reservations with
    | none => exact done.lost owner
    | some queue => exact done.made has owner index
  · rw [if_neg has]
    have absent := Bool.eq_false_iff.mpr has
    refine ⟨done.frame, done.object, done.endp, done.bits, fun j above => done.rest j (by omega), ?_, ?_⟩
    · intro holds j below
      by_cases same : j = k
      · rw [same, none holds, absent]
        rfl
      · exact done.live holds j (by omega)
    · intro e o j pointer
      rcases done.pointers e o j pointer with old | ⟨below, points⟩
      · exact .inl old
      · exact .inr ⟨by omega, points⟩

/-- The device that has got its queues back. -/
theorem Recreated.belongs {s : BceVhci × VhciDevice} (done : Recreated tidy v dev 32 s) (belongs : dev.Belongs p) :
    s.2.Belongs p ∧ (tidy → s.2.Live) := by
  refine ⟨⟨?_, ?_⟩, ?_⟩
  · intro j has
    rw [done.endp]
    exact belongs.endp j (done.bits j has)
  · rw [done.endp]
    exact belongs.ep0
  · intro holds j
    by_cases below : j < 32
    · exact done.live holds j below
    · obtain ⟨bit, none⟩ := done.rest j (by omega)
      have absent : s.2.hasQueue j = false := Bool.eq_false_iff.mpr fun has => below (VhciDevice.hasQueue_lt has)
      rw [absent, none holds]
      rfl

/-- The invariant holds as long as the T2 has kept its promise about device ids. -/
def Sound (v : BceVhci) (tidy : Prop) : Prop :=
  v.t2.honest → v.Inv tidy

theorem MapOk.unheld (ok : v.MapOk) (fresh : v.t2.held devid = false) : v.devices devid = none := by
  cases found : v.devices devid with
  | none => rfl
  | some other => cases fresh.symm.trans (ok.owned devid other found).2.2.1

/-- A step that leaves the tables alone. -/
theorem Sound.of_same (sound : v.Sound tidy) (ports : w.portToDevice = v.portToDevice)
    (devices : w.devices = v.devices)
    (t2 : w.t2 = v.t2) (objects : w.objects = v.objects) (hcpriv : w.hcpriv = v.hcpriv) : w.Sound tidy := by
  intro honest
  rw [t2] at honest
  exact (sound honest).of_same ports devices (fun d held => t2 ▸ held) objects.ge hcpriv

/-- A device id that the T2 has handed out and the driver destroyed again. -/
theorem T2Devices.create_destroy_held {t2 : T2Devices} {d : Nat} {released : Bool} (fresh : t2.held devid = false)
    (held : t2.held d) : ((t2.create devid).destroy devid released).held d := by
  have apart : d ≠ devid := fun same => Bool.false_ne_true (fresh.symm.trans (same ▸ held))
  rw [T2Devices.destroy_held apart]
  exact T2Devices.create_held held

/-- A device without queues that is in no table, and a port without a device. -/
structure Detached (v : BceVhci) (tidy : Prop) (p : Nat) (dev : VhciDevice) : Prop where
  inv : v.Inv tidy
  free : v.portToDevice p = 0
  object : dev.object < v.objects
  new : ∀ d other, v.devices d = some other → other.object ≠ dev.object
  idle : tidy → ∀ j, (dev.tq j).queue = none

/-- A device gets a port, and the queue of its control endpoint. -/
theorem Detached.attach {queue : BceVhciTransferQueue} (apart : v.Detached tidy p dev)
    (range : 1 ≤ devid ∧ devid ≤ 15) (fresh : v.t2.held devid = false) (here : endp.udev.portnum = p)
    (index : endp.index = 0) (object : vdev.object = dev.object)
    (tq : vdev.tq = Function.update dev.tq 0 ⟨some endp, some queue⟩)
    (bits : ∀ j, vdev.hasQueue j = decide (j = 0))
    (ports : w.portToDevice = Function.update v.portToDevice p devid)
    (devices : w.devices = Function.update v.devices devid (some vdev)) (t2 : w.t2 = v.t2.create devid)
    (objects : w.objects = v.objects)
    (hcpriv : w.hcpriv = Function.update v.hcpriv endp (some (dev.object, 0))) : w.Inv tidy := by
  have first : vdev.tq 0 = ⟨some endp, some queue⟩ := by
    rw [tq, Function.update_self]
  have remaps : v.Remaps w p (some vdev) := by
    refine apart.inv.maps.map apart.free range fresh ports devices t2 objects.ge ?_ ?_
    · rw [object, objects]
      exact apart.object
    · rw [object]
      exact apart.new
  refine apart.inv.remap remaps ?_ ?_
  · intro now same
    cases same
    refine ⟨⟨?_, endp, congrArg DeviceQueue.endp first, here, index⟩, ?_⟩
    · intro j has
      rw [bits, decide_eq_true_eq] at has
      rw [has, first]
      exact ⟨endp, rfl, here, index⟩
    · intro holds j
      rw [bits]
      by_cases zero : j = 0
      · rw [zero, first]
        rfl
      · rw [tq, Function.update_of_ne zero, apart.idle holds, decide_eq_false zero]
        rfl
  · intro holds e o j pointer
    rw [hcpriv] at pointer
    by_cases same : e = endp
    · rw [same, Function.update_self] at pointer
      cases pointer
      rw [same]
      exact .inr ⟨here, vdev, rfl, object, index, (bits 0).trans (decide_eq_true rfl),
        congrArg DeviceQueue.endp first⟩
    · rw [Function.update_of_ne same] at pointer
      refine .inl ⟨?_, pointer⟩
      intro there
      obtain ⟨other, mapped, -⟩ := apart.inv.pointers holds e o j pointer
      exact apart.inv.maps.port_ne_zero mapped (there ▸ apart.free)

/-- The device id of a device whose queue could not be created is given up again. -/
theorem Inv.undo_create (inv : v.Inv tidy) (free : v.portToDevice p = 0) (fresh : v.t2.held devid = false)
    (released : Bool)
    (ports : w.portToDevice = Function.update (Function.update v.portToDevice p devid) p 0)
    (devices : w.devices = Function.update v.devices devid none)
    (t2 : w.t2 = (v.t2.create devid).destroy devid released) (objects : v.objects ≤ w.objects)
    (hcpriv : w.hcpriv = v.hcpriv) : w.Inv tidy := by
  refine inv.of_same ?_ ?_ ?_ objects hcpriv
  · rw [ports, Function.update_idem, ← free, Function.update_eq_self]
  · rw [devices, ← inv.maps.unheld fresh, Function.update_eq_self]
  · intro d held
    rw [t2]
    exact T2Devices.create_destroy_held fresh held

theorem Inv.attachDevice (inv : v.Inv tidy) (free : v.portToDevice udev.portnum = 0)
    (range : 1 ≤ devid ∧ devid ≤ 15) (fresh : v.t2.held devid = false) (env : EnableEnv) :
    ((v.deviceCreate devid).attachDevice udev devid env).2.Inv tidy := by
  have apart : v.kzalloc.Detached tidy udev.portnum (VhciDevice.zeroed v.objects) := by
    refine ⟨?_, free, Nat.lt_succ_self _, ?_, fun _ _ => rfl⟩
    · exact inv.of_same rfl rfl (fun _ held => held) (Nat.le_succ _) rfl
    · exact fun d other found => (inv.maps.object d other found).ne
  unfold BceVhci.attachDevice
  dsimp only [VhciDevice.createQueue]
  rw [VhciDevice.setQueue_self]
  cases bceVhciCreateTransferQueue udev.ep0.desc (BitVec.ofNat 8 devid) _ env.queue.memory
    env.queue.reservations with
  | none =>
    refine inv.undo_create free fresh env.released ?_ ?_ ?_ ?_ ?_
    all_goals simp
  | some queue =>
    have tq : (((VhciDevice.zeroed v.objects).setQueue 0 ⟨some udev.ep0, some queue⟩).setMask
        ((VhciDevice.zeroed v.objects).tqMask ||| tqBit 0)).tq =
          Function.update (VhciDevice.zeroed v.objects).tq 0 ⟨some udev.ep0, some queue⟩ := rfl
    refine apart.attach range fresh rfl udev.ep0_index ?_ tq (VhciDevice.hasQueue_ep0 ?_) ?_ ?_ ?_ ?_ ?_
    all_goals simp [VhciDevice.zeroed]

theorem attachDevice_honest (env : EnableEnv) :
    (v.attachDevice udev devid env).2.t2.honest = v.t2.honest := by
  unfold BceVhci.attachDevice
  dsimp only
  split <;> simp

theorem Sound.enableDevice (sound : v.Sound tidy) (udev : UsbDevice) (env : EnableEnv) :
    (v.enableDevice udev env).2.Sound tidy := by
  unfold BceVhci.enableDevice
  dsimp only
  split
  · exact sound.of_same rfl rfl rfl rfl rfl
  rename_i free
  split
  · exact sound.of_same rfl rfl rfl rfl rfl
  split
  · rename_i high
    intro honest
    obtain ⟨-, -, low, -⟩ := T2Devices.create_honest (T2Devices.destroy_honest ▸ honest)
    omega
  split
  · intro honest
    obtain ⟨honest, -, -, fresh⟩ := T2Devices.create_honest (T2Devices.destroy_honest ▸ honest)
    exact (sound honest).of_same rfl rfl (fun d => T2Devices.create_destroy_held fresh) le_rfl rfl
  · intro honest
    rw [attachDevice_honest] at honest
    obtain ⟨honest, low, high, fresh⟩ := T2Devices.create_honest honest
    have inv : (v.use (.portToDevice udev.portnum)).Inv tidy := sound.of_same rfl rfl rfl rfl rfl honest
    exact inv.attachDevice (not_ne_iff.mp free) ⟨low, high⟩ fresh env

theorem TornDown.cleared_all {s : BceVhci × VhciDevice} (torn : TornDown v dev 32 s) (e : UsbHostEndpoint) (j : Nat)
    (has : dev.hasQueue j) (owner : (dev.tq j).endp = some e) : s.1.hcpriv e = none :=
  torn.cleared e j (VhciDevice.hasQueue_lt has) has owner

theorem Sound.signalReconnect (sound : v.Sound tidy) (port : Nat) : (v.signalReconnect port).Sound tidy := by
  unfold BceVhci.signalReconnect
  split
  · exact sound.of_same rfl rfl rfl rfl rfl
  · exact sound

theorem Sound.freeMapped (sound : v.Sound tidy) (held : v.mapped p = some dev) (released : Bool) :
    (v.freeMapped p (v.portToDevice p) dev released).Sound tidy := by
  unfold BceVhci.freeMapped
  dsimp only
  have torn := tearDownQueues_tornDown ((v.setDevice (v.portToDevice p) none).setPort p 0) dev
  generalize ((v.setDevice (v.portToDevice p) none).setPort p 0).tearDownQueues dev = s at torn ⊢
  obtain ⟨hcpriv, frame⟩ := torn.frame
  have cleared := torn.cleared_all
  have kept := torn.hcpriv
  rw [frame] at cleared kept ⊢
  intro honest
  have inv := sound (T2Devices.destroy_honest ▸ honest)
  refine inv.unmap held (by simp) (by simp) ?_ (by simp) ?_ ?_
  · intro d apart
    simp only [kfree_t2, deviceDestroy_t2, setPort_t2, setDevice_t2]
    exact T2Devices.destroy_held apart
  · simpa using kept
  · simpa using cleared

theorem Sound.freeDevice (sound : v.Sound tidy) (udev : UsbDevice) (released : Bool) :
    (v.freeDevice udev released).Sound tidy := by
  unfold BceVhci.freeDevice
  dsimp only
  split
  · exact Sound.signalReconnect (v := v.use _) (sound.of_same rfl rfl rfl rfl rfl) _
  split
  · exact sound.of_same rfl rfl rfl rfl rfl
  · rename_i dev found
    refine Sound.signalReconnect ?_ _
    exact Sound.freeMapped (v := (v.use _).use _) (sound.of_same rfl rfl rfl rfl rfl) found released

/-- A device that has been torn down is taken out of the tables. -/
theorem Inv.detach (inv : v.Inv tidy) (held : v.mapped p = some dev) {s : BceVhci × VhciDevice}
    (torn : TornDown v dev 32 s) (released : Bool) :
    Detached (((s.1.setDevice (v.portToDevice p) none).setPort p 0).deviceDestroy (v.portToDevice p) released)
      tidy p s.2 ∧ s.2.Belongs p := by
  obtain ⟨hcpriv, frame⟩ := torn.frame
  have cleared := torn.cleared_all
  have kept := torn.hcpriv
  obtain ⟨belongs, idle⟩ := torn.belongs (inv.queues p dev held).1 (inv.queues p dev held).2
  refine ⟨⟨?_, by simp, ?_, ?_, idle⟩, belongs⟩
  · refine inv.unmap held ?_ ?_ ?_ ?_ ?_ ?_
    · simp [frame]
    · simp [frame]
    · intro d apart
      simp only [frame, deviceDestroy_t2, setPort_t2, setDevice_t2]
      exact T2Devices.destroy_held apart
    · simp [frame]
    · simpa using kept
    · simpa using cleared
  · simpa [frame, torn.object] using inv.maps.object _ dev held
  · simpa [frame, torn.object] using inv.maps.unmap_new held

/-- The device comes back under a new id. -/
theorem Detached.recreate (apart : v.Detached tidy p dev) (belongs : dev.Belongs p) (range : 1 ≤ devid ∧ devid ≤ 15)
    (fresh : v.t2.held devid = false) {s : BceVhci × VhciDevice}
    (done : Recreated tidy ((v.deviceCreate devid).setPort p devid) dev 32 s) :
    (s.1.setDevice devid (some s.2)).Inv tidy := by
  obtain ⟨hcpriv, frame⟩ := done.frame
  have remaps : v.Remaps (s.1.setDevice devid (some s.2)) p (some s.2) := by
    refine apart.inv.maps.map apart.free range fresh ?_ ?_ ?_ ?_ ?_ ?_
    · simp [frame]
    · simp [frame]
    · simp [frame]
    · simp [frame]
    · simpa [frame, done.object] using apart.object
    · simpa [done.object] using apart.new
  refine apart.inv.remap remaps ?_ ?_
  · intro now same
    cases same
    exact done.belongs belongs
  · intro holds e o j pointer
    rw [setDevice_hcpriv] at pointer
    rcases done.pointers e o j pointer with old | ⟨-, points⟩
    · simp only [setPort_hcpriv, deviceCreate_hcpriv] at old
      refine .inl ⟨?_, old⟩
      intro here
      obtain ⟨other, mapped, -⟩ := apart.inv.pointers holds e o j old
      exact apart.inv.maps.port_ne_zero mapped (here ▸ apart.free)
    · refine .inr ⟨?_, s.2, rfl, points⟩
      obtain ⟨e', owner, here, -⟩ := (done.belongs belongs).1.endp j points.hasQueue
      rw [points.endp] at owner
      cases owner
      exact here

/-- The loop over the queues changes nothing of the tables but pointers. -/
theorem recreate_frame (devid : Nat) (env : Nat → QueueEnv) (v : BceVhci) (dev : VhciDevice) :
    ∃ hcpriv, (forLoop 32 (recreateQueue devid env) (v, dev)).1 = { v with hcpriv } := by
  refine forLoop_keeps (P := fun s : BceVhci × VhciDevice => ∃ hcpriv, s.1 = { v with hcpriv }) ⟨v.hcpriv, rfl⟩ ?_
  rintro i s - ⟨hcpriv, frame⟩
  have set : ∀ e pointer, ∃ hcpriv, s.1.setHcpriv e pointer = { v with hcpriv } := fun e pointer =>
    ⟨Function.update hcpriv e pointer, by rw [frame]; rfl⟩
  unfold recreateQueue
  split
  · split
    · exact ⟨hcpriv, frame⟩
    · dsimp only
      generalize VhciDevice.createQueue _ i _ devid _ (env i) = created
      split
      · exact set _ _
      · exact set _ _
  · exact ⟨hcpriv, frame⟩

theorem recreate_t2 {env : Nat → QueueEnv} (v : BceVhci) (dev : VhciDevice) :
    (forLoop 32 (recreateQueue devid env) (v, dev)).1.t2 = v.t2 := by
  obtain ⟨hcpriv, frame⟩ := recreate_frame devid env v dev
  rw [frame]

theorem Detached.recreated (apart : v.Detached tidy p dev) (belongs : dev.Belongs p) (env : Nat → QueueEnv) :
    Recreated tidy ((v.deviceCreate devid).setPort p devid) dev 32
      (forLoop 32 (recreateQueue devid env) ((v.deviceCreate devid).setPort p devid, dev)) :=
  forLoop_invariant (recreated_start apart.idle) fun _ _ _ done => done.round belongs

theorem Sound.resetMapped (sound : v.Sound tidy) (held : v.mapped p = some dev) (env : ResetEnv) :
    (v.resetMapped p (v.portToDevice p) dev env).2.Sound tidy := by
  unfold BceVhci.resetMapped
  dsimp only
  have torn := tearDownQueues_tornDown v dev
  generalize v.tearDownQueues dev = s at torn ⊢
  have apart : v.t2.honest → _ := fun honest => (sound honest).detach held torn env.released
  obtain ⟨hcpriv, frame⟩ := torn.frame
  have same : s.1.t2 = v.t2 := by
    rw [frame]
  have before : (((s.1.setDevice (v.portToDevice p) none).setPort p 0).deviceDestroy (v.portToDevice p)
      env.released).t2.honest = v.t2.honest := by
    simp [same]
  generalize ((s.1.setDevice (v.portToDevice p) none).setPort p 0).deviceDestroy (v.portToDevice p)
    env.released = w at apart before ⊢
  split
  · intro honest
    exact (apart (before ▸ honest)).1.inv
  · intro honest
    simp only [setDevice_t2, recreate_t2, setPort_t2, deviceCreate_t2] at honest
    obtain ⟨honest, low, high, fresh⟩ := T2Devices.create_honest honest
    obtain ⟨apart, belongs⟩ := apart (before ▸ honest)
    exact apart.recreate belongs ⟨low, high⟩ fresh (apart.recreated belongs env.queue)

theorem Sound.resetDevice (sound : v.Sound tidy) (index : Nat) (env : ResetEnv) :
    (v.resetDevice index env).2.Sound tidy := by
  unfold BceVhci.resetDevice
  dsimp only
  split
  · exact sound.of_same rfl rfl rfl rfl rfl
  split
  · exact sound.of_same rfl rfl rfl rfl rfl
  split
  · exact sound.of_same rfl rfl rfl rfl rfl
  · rename_i dev found
    exact Sound.resetMapped (v := ((v.use _).use _).use _) (sound.of_same rfl rfl rfl rfl rfl) found env

/-- A mapped device is changed in place. -/
theorem Inv.replace (inv : v.Inv tidy) (held : v.mapped p = some dev) (ports : w.portToDevice = v.portToDevice)
    (devices : w.devices = Function.update v.devices (v.portToDevice p) (some vdev)) (t2 : w.t2 = v.t2)
    (objects : w.objects = v.objects) (object : vdev.object = dev.object) (belongs : vdev.Belongs p)
    (live : tidy → vdev.Live)
    (pointers : tidy → ∀ e o j, w.hcpriv e = some (o, j) → v.hcpriv e = some (o, j) ∧
      (e.udev.portnum = p → dev.Points e o j → vdev.Points e o j) ∨ e.udev.portnum = p ∧ vdev.Points e o j) :
    w.Inv tidy := by
  refine inv.remap (inv.maps.replace held ports devices (congrArg T2Devices.held t2) objects object) ?_ ?_
  · intro now same
    cases same
    exact ⟨belongs, live⟩
  · intro holds e o j pointer
    rcases pointers holds e o j pointer with ⟨old, keeps⟩ | ⟨here, points⟩
    · by_cases here : e.udev.portnum = p
      · obtain ⟨other, mapped, points⟩ := inv.pointers holds e o j old
        rw [here, held] at mapped
        cases mapped
        exact .inr ⟨here, vdev, rfl, keeps here points⟩
      · exact .inl ⟨here, old⟩
    · exact .inr ⟨here, vdev, rfl, points⟩

theorem Sound.addEndpoint (sound : v.Sound tidy) (queue : QueueEnv) (create : Int)
    (owns : tidy → ∀ vdev, endp.udev.portnum ≠ 0 → v.mapped endp.udev.portnum = some vdev →
      vdev.hasQueue endp.index →
      (vdev.tq endp.index).endp = some endp) : (v.addEndpoint endp queue create).2.Sound tidy := by
  unfold BceVhci.addEndpoint
  dsimp only
  split
  · exact sound.of_same rfl rfl rfl rfl rfl
  rename_i below
  split
  · exact sound.of_same rfl rfl rfl rfl rfl
  rename_i vdev found
  have held : v.mapped endp.udev.portnum = some vdev := found
  split
  · rename_i has
    intro honest
    have inv := sound honest
    obtain ⟨belongs, live⟩ := inv.queues _ vdev held
    refine inv.replace held ?_ ?_ ?_ ?_ rfl belongs live ?_
    · simp
    · simp only [setHcpriv_devices, use_devices]
      rw [← held, BceVhci.mapped, Function.update_eq_self]
    · simp
    · simp
    · intro holds e o j pointer
      rw [setHcpriv_hcpriv] at pointer
      by_cases same : e = endp
      · rw [same, Function.update_self] at pointer
        cases pointer
        rw [same]
        exact .inr ⟨rfl, rfl, rfl, has, owns holds vdev below held has⟩
      · rw [Function.update_of_ne same] at pointer
        exact .inl ⟨pointer, fun _ points => points⟩
  rename_i absent
  have absent : vdev.hasQueue endp.index = false := Bool.eq_false_iff.mpr absent
  have unaffected : ∀ {e : UsbHostEndpoint} {o j : Nat}, vdev.Points e o j → j ≠ endp.index := by
    rintro e o j points rfl
    cases absent.symm.trans points.hasQueue
  have failed : ∀ (w : BceVhci) (new : VhciDevice), w.portToDevice = v.portToDevice →
      w.devices = Function.update v.devices (v.portToDevice endp.udev.portnum) (some new) → w.t2 = v.t2 →
      w.objects = v.objects → (∀ e pointer, w.hcpriv e = some pointer → v.hcpriv e = some pointer) →
      new.tq = Function.update vdev.tq endp.index ⟨some endp, none⟩ → new.object = vdev.object →
      new.tqMask = vdev.tqMask → w.Sound tidy := by
    intro w new ports devices t2 objects kept tq object mask honest
    have inv := sound (t2 ▸ honest)
    have bits : ∀ j, new.hasQueue j = vdev.hasQueue j := fun j => congrArg (BitVec.getLsbD · j) mask
    obtain ⟨belongs, live⟩ := (inv.queues _ vdev held).1.put (inv.queues _ vdev held).2 rfl tq fun j => by
      rw [bits]
      by_cases same : j = endp.index
      · rw [if_pos same, same, absent]
        rfl
      · rw [if_neg same]
    refine inv.replace held ports devices t2 objects object belongs live ?_
    exact fun _ e o j pointer => .inl ⟨kept e _ pointer,
      fun _ points => points.other (unaffected points) object tq (bits j)⟩
  simp only [VhciDevice.createQueue, VhciDevice.setQueue_self]
  generalize bceVhciCreateTransferQueue endp.desc _ _ queue.memory queue.reservations = made
  cases made with
  | none =>
    refine failed _ (vdev.setQueue endp.index ⟨some endp, none⟩) ?_ ?_ ?_ ?_ ?_ rfl rfl rfl
    all_goals simp
  | some made =>
    rw [if_neg (by simp)]
    split
    · refine failed _ ((vdev.setQueue endp.index ⟨some endp, some made⟩).destroyQueue endp.index)
        ?_ ?_ ?_ ?_ ?_ ?_ rfl rfl
      · simp
      · simp
      · simp
      · simp
      · intro e pointer kept
        rw [setDevice_hcpriv] at kept
        by_cases same : e = endp
        · rw [same, setHcpriv_self] at kept
          cases kept
        · rwa [setHcpriv_other same] at kept
      · rw [VhciDevice.destroyQueue, VhciDevice.setQueue_self]
        exact Function.update_idem ..
    · intro honest
      have inv := sound honest
      have bits : ∀ j, ((vdev.setQueue endp.index ⟨some endp, some made⟩).setMask
          (vdev.tqMask ||| tqBit endp.index)).hasQueue j =
            if j = endp.index then (some made).isSome else vdev.hasQueue j := by
        intro j
        refine (VhciDevice.hasQueue_set vdev endp.index_lt j).trans ?_
        by_cases same : j = endp.index
        · rw [if_pos same, decide_eq_true same, Bool.or_true]
          rfl
        · rw [if_neg same, decide_eq_false same, Bool.or_false]
      obtain ⟨belongs, live⟩ := (inv.queues _ vdev held).1.put
        (inv.queues _ vdev held).2 rfl rfl bits
      refine inv.replace held ?_ ?_ ?_ ?_ ?_ belongs live ?_
      · simp
      · simp
      · simp
      · simp
      · rfl
      · intro _ e o j pointer
        rw [setDevice_hcpriv] at pointer
        by_cases same : e = endp
        · rw [same, setHcpriv_self] at pointer
          cases pointer
          rw [same]
          refine .inr ⟨rfl, rfl, rfl, (bits _).trans (if_pos rfl), ?_⟩
          rw [VhciDevice.setMask_tq, VhciDevice.setQueue_self]
        · rw [setHcpriv_other same] at pointer
          refine .inl ⟨pointer, fun _ points => ?_⟩
          exact points.other (unaffected points) rfl rfl ((bits j).trans (if_neg (unaffected points)))

/-- A queue that is destroyed in place, and its bit cleared. -/
theorem Inv.dropQueue (inv : v.Inv tidy) (held : v.mapped p = some dev) {k : Nat}
    (ports : w.portToDevice = v.portToDevice)
    (devices : w.devices = Function.update v.devices (v.portToDevice p)
      (some ((dev.setMask (dev.tqMask &&& ~~~tqBit k)).destroyQueue k)))
    (t2 : w.t2 = v.t2) (objects : w.objects = v.objects)
    (hcpriv : w.hcpriv = Function.update v.hcpriv endp none)
    (owner : tidy → dev.hasQueue k → (dev.tq k).endp = some endp) : w.Inv tidy := by
  have bits : ∀ j, ((dev.setMask (dev.tqMask &&& ~~~tqBit k)).destroyQueue k).hasQueue j =
      (dev.hasQueue j && decide (j ≠ k)) :=
    VhciDevice.hasQueue_clear dev k
  have other : ∀ {j}, j ≠ k →
      ((dev.setMask (dev.tqMask &&& ~~~tqBit k)).destroyQueue k).hasQueue j = dev.hasQueue j := by
    intro j apart
    rw [bits, decide_eq_true apart, Bool.and_true]
  obtain ⟨belongs, live⟩ := inv.queues p dev held
  refine inv.replace held ports devices t2 objects rfl ⟨?_, ?_⟩ ?_ ?_
  · intro j has
    rw [bits, Bool.and_eq_true, decide_eq_true_eq] at has
    rw [VhciDevice.destroyQueue, VhciDevice.setQueue_other _ _ has.2]
    exact belongs.endp j has.1
  · by_cases zero : 0 = k
    · rw [VhciDevice.destroyQueue, ← zero, VhciDevice.setQueue_self]
      exact belongs.ep0
    · rw [VhciDevice.destroyQueue, VhciDevice.setQueue_other _ _ zero]
      exact belongs.ep0
  · intro holds j
    by_cases same : j = k
    · rw [bits, same, VhciDevice.destroyQueue, VhciDevice.setQueue_self]
      simp
    · rw [other same, VhciDevice.destroyQueue, VhciDevice.setQueue_other _ _ same]
      exact live holds j
  · intro holds e o j pointer
    rw [hcpriv] at pointer
    by_cases same : e = endp
    · rw [same, Function.update_self] at pointer
      cases pointer
    · rw [Function.update_of_ne same] at pointer
      refine .inl ⟨pointer, fun _ points => ?_⟩
      have apart : j ≠ k := by
        rintro rfl
        exact same (Option.some.inj (points.endp.symm.trans (owner holds points.hasQueue)))
      exact points.other apart rfl rfl (other apart)

/-- A pointer to a queue of a mapped device leads to that device alone. -/
theorem MapOk.destroyAt (ok : v.MapOk) (held : v.mapped p = some dev) {k : Nat}
    (devices : w.devices = Function.update v.devices (v.portToDevice p) (some vdev))
    (object : vdev.object = dev.object) :
    (w.destroyAt dev.object k).devices =
      Function.update v.devices (v.portToDevice p) (some (vdev.destroyQueue k)) := by
  funext d
  show (w.devices d).map _ = _
  rw [devices]
  by_cases same : d = v.portToDevice p
  · rw [same, Function.update_self, Function.update_self, Option.map_some, if_pos object]
  · rw [Function.update_of_ne same, Function.update_of_ne same]
    cases found : v.devices d with
    | none => rfl
    | some other =>
      rw [Option.map_some, if_neg fun here => same (ok.unique d _ other dev found held here)]

/-- Queues may be destroyed and bits cleared anywhere when only the map has to be kept. -/
theorem Inv.weaken (inv : v.Inv tidy) (wild : ¬tidy) (ports : w.portToDevice = v.portToDevice)
    (devices : ∀ d, Option.Rel VhciDevice.Kept (v.devices d) (w.devices d)) (t2 : w.t2 = v.t2)
    (objects : w.objects = v.objects) : w.Inv tidy := by
  have before : ∀ {d vdev}, w.devices d = some vdev → ∃ dev, v.devices d = some dev ∧ dev.Kept vdev := by
    intro d vdev found
    have related := devices d
    rw [found] at related
    cases found' : v.devices d with
    | none =>
      rw [found'] at related
      cases related
    | some dev =>
      rw [found'] at related
      cases related with
      | some kept => exact ⟨dev, rfl, kept⟩
  refine ⟨⟨?_, ?_, ?_, ?_, ?_⟩, ?_, fun holds => absurd holds wild⟩
  · intro q named
    rw [ports] at named
    obtain ⟨dev, found⟩ := Option.isSome_iff_exists.mp (inv.maps.named q named)
    have related := devices (v.portToDevice q)
    rw [show v.devices (v.portToDevice q) = some dev from found] at related
    rw [mapped, ports]
    generalize w.devices (v.portToDevice q) = after at related ⊢
    cases related
    rfl
  · rw [ports]
    exact inv.maps.apart
  · intro d vdev found
    obtain ⟨dev, found, -⟩ := before found
    rw [ports, t2]
    exact inv.maps.owned d dev found
  · intro d vdev found
    obtain ⟨dev, found, kept⟩ := before found
    rw [kept.object, objects]
    exact inv.maps.object d dev found
  · intro d e vdev other found found' same
    obtain ⟨dev, found, kept⟩ := before found
    obtain ⟨dev', found', kept'⟩ := before found'
    exact inv.maps.unique d e dev dev' found found' (kept.object.symm.trans (same.trans kept'.object))
  · intro q vdev found
    rw [mapped, ports] at found
    obtain ⟨dev, found, kept⟩ := before found
    exact ⟨kept.belongs (inv.queues q dev found).1, fun holds => absurd holds wild⟩

theorem Sound.dropEndpoint (sound : v.Sound tidy)
    (owns : tidy → ∀ vdev, v.mapped endp.udev.portnum = some vdev → v.hcpriv endp = none →
      vdev.hasQueue endp.index → (vdev.tq endp.index).endp = some endp) : (v.dropEndpoint endp).Sound tidy := by
  have cleared : ∀ {w : BceVhci}, w.portToDevice = v.portToDevice → w.devices = v.devices → w.t2 = v.t2 →
      w.objects = v.objects → w.hcpriv = Function.update v.hcpriv endp none → w.Sound tidy := by
    intro w ports devices t2 objects hcpriv honest
    refine (sound (t2 ▸ honest)).of_kept ports devices (fun d held => t2 ▸ held) objects.ge ?_
    intro e pointer kept
    rw [hcpriv] at kept
    by_cases same : e = endp
    · rw [same, Function.update_self] at kept
      cases kept
    · rwa [Function.update_of_ne same] at kept
  unfold BceVhci.dropEndpoint
  dsimp only
  split
  · exact cleared (by simp) (by simp) (by simp) (by simp) (by simp)
  split
  · exact cleared (by simp) (by simp) (by simp) (by simp) (by simp)
  rename_i vdev found
  have held : v.mapped endp.udev.portnum = some vdev := found
  split
  · rename_i null
    have null : v.hcpriv endp = none := null
    split
    · rename_i has
      intro honest
      have inv := sound honest
      refine inv.dropQueue held ?_ ?_ ?_ ?_ ?_ fun holds _ => owns holds vdev held null has
      · simp
      · exact inv.maps.destroyAt held (by simp) rfl
      · simp
      · simp
      · simp
    · exact sound.of_same rfl rfl rfl rfl rfl
  · rename_i object j pointer
    have pointer : v.hcpriv endp = some (object, j) := pointer
    intro honest
    have inv := sound honest
    by_cases holds : tidy
    · obtain ⟨dev, mapped, points⟩ := inv.pointers holds endp object j pointer
      rw [held] at mapped
      cases mapped
      rw [← points.object, ← points.index] at *
      refine inv.dropQueue held ?_ ?_ ?_ ?_ ?_ fun _ _ => points.endp
      · simp
      · exact inv.maps.destroyAt held (by simp) rfl
      · simp
      · simp
      · simp
    · refine inv.weaken holds ?_ (fun d => ?_) ?_ ?_
      · simp
      · have destroyed : ∀ dev : VhciDevice, VhciDevice.Kept dev
            (if dev.object = object then dev.destroyQueue j else dev) := by
          intro dev
          split
          · exact dev.kept_destroyQueue j
          · exact .refl dev
        show Option.Rel _ _ ((Function.update v.devices (v.portToDevice endp.udev.portnum) (some _) d).map _)
        by_cases same : d = v.portToDevice endp.udev.portnum
        · rw [same, Function.update_self, Option.map_some, show v.devices _ = some vdev from held]
          exact .some ((vdev.kept_clear endp.index).trans (destroyed _))
        · rw [Function.update_of_ne same]
          cases v.devices d with
          | none => exact .none
          | some dev => exact .some (destroyed dev)
      · simp
      · simp

end BceVhci

end AppleBce
