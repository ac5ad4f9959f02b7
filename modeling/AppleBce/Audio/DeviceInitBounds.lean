import AppleBce.Audio.DeviceInit

namespace AppleBce

open Basis

namespace DeviceInit

variable {α β : Type} {env : InitEnv} {P : α → Prop}

/-- The program uses what it may use, in any state and whatever the T2 answers, and yields what it should. -/
def Safe (m : InitM α) (P : α → Prop) : Prop :=
  Logged.Ensures InitAccess.Fine (fun _ => True) m fun a _ => P a

theorem Safe.pure {a : α} (holds : P a) : Safe (pure a) P :=
  Logged.Ensures.pure fun _ _ => holds

theorem Safe.bind {m : InitM α} {next : α → InitM β} {last : β → Prop} (first : Safe m P)
    (rest : ∀ a, P a → Safe (next a) last) : Safe (m >>= next) last :=
  Logged.Ensures.bind first fun a s reached => rest a reached s trivial

theorem Safe.weaken {m : InitM α} {weaker : α → Prop} (run : Safe m P) (holds : ∀ a, P a → weaker a) :
    Safe m weaker :=
  Logged.Ensures.weaken run fun a _ => holds a

theorem Safe.record {e : InitAccess} (fine : e.Fine) : Safe (Logged.record e) fun _ => True :=
  Logged.Ensures.record fine

theorem touch_safe {memory : InitMemory} {first count : Nat} (inside : first + count ≤ memory.size) :
    Safe (touch memory first count) fun _ => True :=
  Safe.record inside

theorem Safe.change {f : InitState → Outcome InitState InitAccess α} (silent : ∀ s, (f s).log = [])
    (holds : ∀ s, P (f s).value) : Safe (Logged.change f) P := by
  refine Logged.Ensures.change fun s _ => ⟨holds s, ?_⟩
  rw [silent]
  exact nofun

/-- An invariant of a round is one of the loop. -/
theorem Safe.loop {I : Nat → α → Prop} {n : Nat} {body : Nat → α → InitM α} {a : α} (start : I 0 a)
    (round : ∀ i b, i < n → I i b → Safe (body i b) (I (i + 1))) : Safe (Logged.loop n body a) (I n) :=
  Logged.Ensures.loop (fun _ _ => start) fun i b below s held => round i b below held s trivial

theorem aaudioReplyAlloc_safe : Safe (aaudioReplyAlloc env) fun reply =>
    ∀ buf, reply = some buf → buf.size ≤ aaudioBceQueueElementSize := by
  refine Safe.bind (Safe.change (fun _ => rfl) fun _ => trivial : Safe (kmalloc env) fun _ => True)
    fun memory _ => ?_
  refine Safe.pure fun buf here => ?_
  obtain ⟨data, -, rfl⟩ := Option.map_eq_some_iff.mp here
  exact Nat.le_refl _

/-- The buffer only ever gets shorter. -/
theorem aaudioSendCmdSync_safe {command : InitCommand} {buf : AaudioMsg Byte}
    (fits : buf.size ≤ aaudioBceQueueElementSize) :
    Safe (aaudioSendCmdSync env command buf) fun sent => sent.2.size ≤ aaudioBceQueueElementSize := by
  refine Safe.bind (Safe.change (fun _ => rfl) fun _ => trivial : Safe (submit env command) fun _ => True) ?_
  intro outcome _
  split
  · exact Safe.pure fits
  split
  · exact Safe.pure fits
  · rename_i reply _
    have copied : (buf.copyReply reply).size ≤ aaudioBceQueueElementSize := by
      rw [AaudioMsg.copyReply_size]
      omega
    have inside : 0 + (buf.copyReply reply).size ≤ aaudioBceQueueElementSize := by omega
    exact (touch_safe inside).bind fun _ _ => (touch_safe inside).bind fun _ _ => Safe.pure copied

/-- What a reader does with a reply buffer: it stays inside, its calculations stay in range, and what it
yields on success has `holds`. -/
def Reads (reader : Nat → MsgReader α) (holds : AaudioMsg Byte → α → Prop) : Prop :=
  ∀ buf, buf.size ≤ aaudioBceQueueElementSize →
    ((reader buf.size).run buf.data 0).reach ≤ aaudioBceQueueElementSize ∧
    ((reader buf.size).run buf.data 0).result ≠ .error .wrap ∧
    ∀ a past, ((reader buf.size).run buf.data 0).result = .ok (a, past) → holds buf a

/-- A reader that goes on behind the base with fields of fixed sizes. -/
theorem reads_started {type : Nat} {fatalStatus : Bool} {next : MsgReader α} {holds : α → Prop}
    (rest : ∀ data, ∃ a past reach, next.run data 21 = ⟨.ok (a, past), reach⟩ ∧ reach ≤ aaudioBceQueueElementSize ∧
      holds a) :
    Reads (fun size => MsgReader.readStart size type fatalStatus >>= fun _ => next) fun _ a => holds a := by
  intro buf fits
  have small : 21 ≤ aaudioBceQueueElementSize := by decide
  cases verified : aaudioMsgVerify buf type fatalStatus with
  | error e =>
    have refused : ((MsgReader.readStart buf.size type fatalStatus).run buf.data 0).result = .error (.errno e) :=
      MsgReader.run_readStart_error verified
    rw [ByteReader.run_bind, ByteReader.continued_of_error _ refused]
    refine ⟨?_, ?_, ?_⟩
    · simp only [MsgReader.readStart]
      split
      · exact Nat.zero_le _
      · exact small
    · intro same
      cases same
    · intro a past same
      cases same
  | ok =>
    obtain ⟨a, past, reach, run, near, fields⟩ := rest buf.data
    rw [MsgReader.run_started verified, run]
    refine ⟨Nat.max_le.mpr ⟨small, near⟩, ?_, ?_⟩
    · intro same
      cases same
    · intro b past same
      cases same
      exact fields

theorem reads_getPropertyResponse :
    Reads MsgReader.aaudioMsgReadGetPropertyResponse fun _ property => property.data = 49 :=
  reads_started fun _ => ⟨_, _, 49, rfl, by decide, rfl⟩

theorem reads_propertyListenerResponse :
    Reads MsgReader.aaudioMsgReadPropertyListenerResponse fun _ _ => True :=
  reads_started fun _ => ⟨_, _, 41, rfl, by decide, trivial⟩

theorem reads_idList (type : Nat) : Reads (MsgReader.readIdList type) fun _ list => list.strL = 29 :=
  reads_started fun _ => ⟨_, _, 29, rfl, by decide, rfl⟩

/-- The three arrays of a control list lie inside the reply. -/
def ListInside (buf : AaudioMsg Byte) (list : MsgReader.ControlListResponse) : Prop :=
  list.ctrlL + 8 * list.ctrlCnt ≤ buf.size ∧ list.elemL + 8 * list.ctrlCnt ≤ buf.size ∧
  list.scopeL + 8 * list.ctrlCnt ≤ buf.size

theorem reads_controlList : Reads MsgReader.aaudioMsgReadGetControlListResponse ListInside := by
  intro buf small
  have fits : buf.size < 2 ^ 64 := Nat.lt_of_le_of_lt small (by decide)
  by_cases accepted : ControlListStart buf ∧ ControlListBody buf
  · obtain ⟨inside, -⟩ := (controlListBody_iff rfl).mp accepted.2
    rw [MsgReader.controlList_accepted (controlList_verified.mpr accepted.1) fits accepted.2]
    refine ⟨by simp only; omega, nofun, ?_⟩
    intro list past same
    cases same
    refine ⟨?_, ?_, ?_⟩
    · simp only
      omega
    · simp only
      omega
    · simp only
      omega
  · obtain ⟨e, reach, below, failed⟩ := MsgReader.controlList_failed fits accepted
    rw [failed]
    exact ⟨below.trans small, nofun, nofun⟩

/-- A reader stays in a reply of at most the size of an element. -/
theorem readReply_safe {reader : Nat → MsgReader α} {holds : AaudioMsg Byte → α → Prop} {buf : AaudioMsg Byte}
    (reads : Reads reader holds) (fits : buf.size ≤ aaudioBceQueueElementSize) :
    Safe (readReply reader buf) fun response => ∀ a, response = .ok a → holds buf a := by
  obtain ⟨near, inRange, yields⟩ := reads buf fits
  have inside : 0 + ((reader buf.size).run buf.data 0).reach ≤ aaudioBceQueueElementSize := by omega
  refine (touch_safe inside).bind fun _ _ => ?_
  split
  · exact Safe.pure nofun
  · rename_i wrapped
    exact absurd wrapped inRange
  · rename_i a past read
    refine Safe.pure fun b same => ?_
    cases same
    exact yields a past read

/-- A command, the reply in its buffer, and the reader over it. -/
theorem cmdWithBuffer_safe {command : InitCommand} {reader : Nat → MsgReader α} {holds : AaudioMsg Byte → α → Prop}
    {buf : AaudioMsg Byte} (reads : Reads reader holds) (fits : buf.size ≤ aaudioBceQueueElementSize) :
    Safe (cmdWithBuffer env command reader buf) fun response =>
      response.2.size ≤ aaudioBceQueueElementSize ∧ ∀ a, response.1 = .ok a → holds response.2 a := by
  refine (aaudioSendCmdSync_safe fits).bind fun sent small => ?_
  split
  · exact Safe.pure ⟨small, nofun⟩
  · exact (readReply_safe reads small).bind fun response yields => Safe.pure ⟨small, yields⟩

theorem aaudioCmdGetPrimitiveProperty_safe {devid obj dataSize : Nat} {prop : AaudioPropAddr}
    (small : 49 + dataSize ≤ aaudioBceQueueElementSize) :
    Safe (aaudioCmdGetPrimitiveProperty env devid obj prop dataSize) fun _ => True := by
  refine aaudioReplyAlloc_safe.bind fun reply sized => ?_
  split
  · exact Safe.pure trivial
  · rename_i buf
    refine (cmdWithBuffer_safe reads_getPropertyResponse (sized buf rfl)).bind fun response yields => ?_
    split
    · exact Safe.pure trivial
    · rename_i property read
      split
      · exact Safe.pure trivial
      · have start := yields.2 property read
        exact (touch_safe (by rw [start]; exact small)).bind fun _ _ => Safe.pure trivial

theorem queryU32_safe {devid obj : Nat} {prop : AaudioPropAddr} :
    Safe (queryU32 env devid obj prop) fun _ => True := by
  refine (aaudioCmdGetPrimitiveProperty_safe (by decide)).bind fun value _ => ?_
  split
  · exact Safe.pure trivial
  · exact Safe.pure trivial

theorem aaudioInitStreamInfo_safe {devid id : Nat} : Safe (aaudioInitStreamInfo env devid id) fun _ => True := by
  refine (aaudioCmdGetPrimitiveProperty_safe (by decide)).bind fun desc _ => ?_
  refine queryU32_safe.bind fun latency _ => ?_
  split
  · exact Safe.pure trivial
  · exact Safe.pure trivial

/-- At most as many streams are entered as the table has room for, also when the T2 lists more. -/
theorem initStreams_safe {memory : InitMemory} {devid deviceLatency : Nat} {list : StreamListResponse}
    {buf : AaudioMsg Byte} (room : memory.size = aaudioDeviceMaxStreams) (start : list.strL = 29) :
    Safe (initStreams env memory devid deviceLatency list buf) fun streams =>
      streams.length ≤ aaudioDeviceMaxStreams := by
  have run : Safe (initStreams env memory devid deviceLatency list buf) fun streams =>
      streams.length = min list.strCnt aaudioDeviceMaxStreams := by
    refine Safe.loop (I := fun i (streams : List InitStream) => streams.length = i) rfl ?_
    intro i streams below count
    have one : i < aaudioDeviceMaxStreams := Nat.lt_of_lt_of_le below (Nat.min_le_right ..)
    have id : list.strL + 8 * i + 8 ≤ InitMemory.reply.size := by
      simp only [aaudioDeviceMaxStreams] at one
      simp only [start, InitMemory.size, aaudioBceQueueElementSize]
      omega
    have element : i + 1 ≤ memory.size := room ▸ one
    refine (touch_safe id).bind fun _ _ => (touch_safe element).bind fun _ _ => ?_
    refine aaudioInitStreamInfo_safe.bind fun strm _ => Safe.pure ?_
    rw [List.length_append, count, List.length_singleton]
  exact run.weaken fun streams length => length ▸ Nat.min_le_right ..

/-- A control that is entered is one the driver knows. -/
def KnownClass (c : InitControl) : Prop :=
  c.classId = aaudioClassVolume ∨ c.classId = aaudioClassMute

/-- The controls fit their array, and each has a known class. -/
def ControlsFormed (controls : List InitControl) : Prop :=
  controls.length ≤ aaudioDeviceMaxControls ∧ ∀ c ∈ controls, KnownClass c

/-- The look at the room before each control keeps the table within its size. -/
theorem ControlsFormed.append {controls : List InitControl} {c : InitControl} (formed : ControlsFormed controls)
    (room : ¬aaudioDeviceMaxControls ≤ controls.length) (known : KnownClass c) :
    ControlsFormed (controls ++ [c]) := by
  obtain ⟨fits, classes⟩ := formed
  refine ⟨?_, ?_⟩
  · rw [List.length_append, List.length_singleton]
    omega
  · intro other member
    obtain old | new := List.mem_append.mp member
    · exact classes other old
    · rw [List.mem_singleton.mp new]
      exact known

/-- `aaudio_f64_milli` stays in range for all bits, so that no range of the T2 makes it overflow. -/
theorem aaudioF64Milli_isSome (bits : BitVec 64) : (aaudioF64Milli bits).isSome := by
  have width : binary64.significand bits.toNat < 2 ^ 53 := BinaryFormat.significand_lt
  rw [aaudioF64Milli]
  simp only [f64_significand]
  split
  · rfl
  split
  · rfl
  · generalize Int.toNat (52 - ((((bits >>> 52) &&& 0x7ff#64).toNat : Int) - 1023)) = shift
    have less := Nat.shiftRight_le (binary64.significand bits.toNat * 1000) shift
    rw [checkedU64_of_lt (by omega), Option.bind_some]
    generalize (binary64.significand bits.toNat * 1000) >>> shift = m at less ⊢
    rw [checkedS64_natCast (by omega), Option.bind_some, applySign]
    split
    · rw [checkedS64_of_lt (by omega) (by omega)]
      rfl
    · rfl

theorem ofRange_isSome (least most : BitVec 64) : (AaudioControl.ofRange (least, most)).isSome := by
  obtain ⟨low, first⟩ := Option.isSome_iff_exists.mp (aaudioF64Milli_isSome least)
  obtain ⟨high, second⟩ := Option.isSome_iff_exists.mp (aaudioF64Milli_isSome most)
  simp only [AaudioControl.ofRange, first, second, Option.bind_some, Option.map_some, Option.isSome_some]

/-- A control is entered if there is room for it and its class is known. -/
theorem initControl_safe {devid i : Nat} {list : MsgReader.ControlListResponse} {buf : AaudioMsg Byte}
    {controls : List InitControl} (fits : buf.size ≤ aaudioBceQueueElementSize) (inside : ListInside buf list)
    (below : i < list.ctrlCnt) (formed : ControlsFormed controls) :
    Safe (initControl env devid list buf i controls) ControlsFormed := by
  obtain ⟨ids, elements, scopes⟩ := inside
  unfold initControl
  split
  · exact Safe.pure formed
  · rename_i room
    have entry : controls.length + 1 ≤ aaudioDeviceMaxControls := by omega
    have id : list.ctrlL + 8 * i + 8 ≤ aaudioBceQueueElementSize := by omega
    have scope : list.scopeL + 8 * i + 8 ≤ aaudioBceQueueElementSize := by omega
    have element : list.elemL + 8 * i + 8 ≤ aaudioBceQueueElementSize := by omega
    refine (touch_safe entry).bind fun _ _ => (touch_safe id).bind fun _ _ => ?_
    refine (touch_safe scope).bind fun _ _ => (touch_safe element).bind fun _ _ => ?_
    refine (aaudioCmdGetPrimitiveProperty_safe (by decide)).bind fun classId _ => ?_
    split
    · exact Safe.pure formed
    split
    · refine (aaudioCmdGetPrimitiveProperty_safe (by decide)).bind fun range _ => ?_
      split
      · exact Safe.pure formed
      · refine (Safe.record ?_).bind fun _ _ => ?_
        · exact ofRange_isSome _ _
        · split
          · exact Safe.pure formed
          · exact Safe.pure (formed.append room (.inl rfl))
    split
    · exact Safe.pure (formed.append room (.inr rfl))
    · exact Safe.pure formed

/-- Without a list there are no controls. -/
theorem aaudioInitControls_safe {devid : Nat} : Safe (aaudioInitControls env devid) ControlsFormed := by
  have empty : ControlsFormed [] := ⟨Nat.zero_le _, nofun⟩
  refine aaudioReplyAlloc_safe.bind fun reply sized => ?_
  split
  · exact Safe.pure empty
  · rename_i buf
    refine (cmdWithBuffer_safe reads_controlList (sized buf rfl)).bind fun response yields => ?_
    split
    · exact Safe.pure empty
    · rename_i list read
      refine Safe.loop (I := fun _ => ControlsFormed) empty fun i controls below formed => ?_
      exact initControl_safe yields.1 (yields.2 list read) below formed

theorem initJack_safe {devid : Nat} {uid : List Byte} : Safe (initJack env devid uid) fun _ => True := by
  unfold initJack
  split
  · exact Safe.pure trivial
  · refine Safe.bind (P := fun _ => True) (Safe.change (fun _ => rfl) fun _ => trivial) fun created _ => ?_
    refine Safe.bind (P := fun _ => True) ?_ fun _ _ => ?_
    · refine aaudioReplyAlloc_safe.bind fun reply sized => ?_
      split
      · exact Safe.pure trivial
      · rename_i buf
        exact (cmdWithBuffer_safe reads_propertyListenerResponse (sized buf rfl)).bind fun _ _ => Safe.pure trivial
    · split
      · refine (aaudioCmdGetPrimitiveProperty_safe (by decide)).bind fun plugged _ => ?_
        split
        · exact Safe.pure trivial
        · exact Safe.pure trivial
      · exact Safe.pure trivial

/-- A device that is given up promises nothing. -/
theorem given_up {holds : α → Prop} :
    Safe (Pure.pure none : InitM (Option α)) fun a => ∀ b, a = some b → holds b := by
  refine Safe.pure fun b same => ?_
  cases same

/-- What the arrays of a subdevice hold fits them. -/
structure Formed (sdev : InitSubdevice) : Prop where
  uid : sdev.uid.length ≤ aaudioDeviceMaxUidLen
  inStreams : sdev.inStreams.length ≤ aaudioDeviceMaxStreams
  outStreams : sdev.outStreams.length ≤ aaudioDeviceMaxStreams
  controls : ControlsFormed sdev.controls

theorem initDevStreams_safe {devid inLatency outLatency : Nat} {buf : AaudioMsg Byte}
    (fits : buf.size ≤ aaudioBceQueueElementSize) :
    Safe (initDevStreams env devid inLatency outLatency buf) fun streams => ∀ both, streams = some both →
      both.1.length ≤ aaudioDeviceMaxStreams ∧ both.2.length ≤ aaudioDeviceMaxStreams := by
  refine (cmdWithBuffer_safe (reads_idList _) fits).bind fun ins reached => ?_
  split
  · exact given_up
  · rename_i list read
    refine (initStreams_safe rfl (reached.2 list read)).bind fun inStreams few => ?_
    refine (cmdWithBuffer_safe (reads_idList _) reached.1).bind fun outs reached => ?_
    split
    · exact given_up
    · rename_i list read
      refine (initStreams_safe rfl (reached.2 list read)).bind fun outStreams also => ?_
      refine Safe.pure fun both same => ?_
      cases same
      exact ⟨few, also⟩

/-- The uid fits its array with the terminator behind it. -/
theorem initDevUid_safe {devid : Nat} {property : PropertyResponse} {buf : AaudioMsg Byte}
    (fits : buf.size ≤ aaudioBceQueueElementSize) (start : property.data = 49)
    (short : property.dataSize ≤ aaudioDeviceMaxUidLen) :
    Safe (initDevUid env devid property buf) fun sdev => ∀ entered, sdev = some entered → Formed entered := by
  have reply : property.data + property.dataSize ≤ aaudioBceQueueElementSize := by
    simp only [aaudioDeviceMaxUidLen] at short
    simp only [start, aaudioBceQueueElementSize]
    omega
  have uid : 0 + property.dataSize ≤ aaudioDeviceMaxUidLen + 1 := by omega
  have terminator : property.dataSize + 1 ≤ aaudioDeviceMaxUidLen + 1 := by omega
  refine (touch_safe reply).bind fun _ _ => (touch_safe uid).bind fun _ _ =>
    (touch_safe terminator).bind fun _ _ => ?_
  refine queryU32_safe.bind fun inLatency _ => queryU32_safe.bind fun outLatency _ => ?_
  refine (initDevStreams_safe fits).bind fun streams few => ?_
  split
  · exact given_up
  · rename_i inStreams outStreams
    obtain ⟨ins, outs⟩ := few _ rfl
    refine aaudioInitControls_safe.bind fun controls formed => initJack_safe.bind fun plugged _ => ?_
    refine Safe.pure fun entered same => ?_
    cases same
    exact ⟨by rw [List.length_map, List.length_range]; exact short, ins, outs, formed⟩

/-- A device that is entered is formed. -/
theorem aaudioInitDev_safe {devid : Nat} :
    Safe (aaudioInitDev env devid) fun sdev => ∀ entered, sdev = some entered → Formed entered := by
  refine aaudioReplyAlloc_safe.bind fun buf sized => ?_
  refine Safe.bind (P := fun _ => True) (Safe.change (fun _ => rfl) fun _ => trivial) fun sdev _ => ?_
  split
  · rename_i buf
    refine (cmdWithBuffer_safe reads_getPropertyResponse (sized buf rfl)).bind fun response reached => ?_
    split
    · exact given_up
    · rename_i property read
      split
      · exact given_up
      · rename_i short
        exact initDevUid_safe reached.1 (reached.2 property read) (Nat.le_of_not_lt short)
  · exact given_up

/-- The ids of the devices are read up to the end of the reply. -/
theorem devMax_bounds {buf : AaudioMsg Byte} {devL i : Nat} (below : i < devMax buf devL) :
    devL + 8 * i + 8 ≤ buf.size := by
  unfold devMax at below
  split at below
  · omega
  · omega

/-- Whatever the T2 answers to the commands of the initialisation, of any sizes, late or not at all, and
whatever the memory it gets holds: every access is inside the reply buffer, the in queue's element or the
array it is into, no range of a control makes a calculation overflow, and each subdevice that is entered
has no more streams and controls than its arrays, and no control of another class. The device list never
has more than the 508 ids that a reply has room for. -/
theorem init_stays_inside (env : InitEnv) (s : InitState) :
    (∀ access ∈ (aaudioInitCmd env s).log, access.Fine) ∧
    ∀ sdevs, (aaudioInitCmd env s).value = .ok sdevs → sdevs.length ≤ 508 ∧ ∀ sdev ∈ sdevs, Formed sdev := by
  have run : Safe (aaudioInitCmd env) fun result => ∀ sdevs, result = .ok sdevs →
      sdevs.length ≤ 508 ∧ ∀ sdev ∈ sdevs, Formed sdev := by
    unfold aaudioInitCmd
    split
    · exact Safe.pure nofun
    refine aaudioReplyAlloc_safe.bind fun buf sized => ?_
    split
    · exact Safe.pure nofun
    rename_i buf
    refine (cmdWithBuffer_safe (reads_idList _) (sized buf rfl)).bind fun response reached => ?_
    split
    · exact Safe.pure nofun
    rename_i list read
    have start : list.strL = 29 := reached.2 list read
    have loop : Safe (Logged.loop (min list.strCnt (devMax response.2 list.strL)) (fun i sdevs => do
        touch .reply (list.strL + 8 * i) 8
        let sdev ← aaudioInitDev env (readVal response.2.data (list.strL + 8 * i) 8)
        pure (sdevs ++ sdev.toList)) []) fun sdevs =>
          sdevs.length ≤ min list.strCnt (devMax response.2 list.strL) ∧ ∀ sdev ∈ sdevs, Formed sdev := by
      refine Safe.loop (I := fun i (sdevs : List InitSubdevice) => sdevs.length ≤ i ∧ ∀ sdev ∈ sdevs, Formed sdev)
        ⟨Nat.le_refl _, nofun⟩ ?_
      intro i sdevs below held
      have inside : list.strL + 8 * i + 8 ≤ aaudioBceQueueElementSize :=
        (devMax_bounds (Nat.lt_of_lt_of_le below (Nat.min_le_right ..))).trans reached.1
      refine (touch_safe inside).bind fun _ _ => aaudioInitDev_safe.bind fun sdev formed => Safe.pure ⟨?_, ?_⟩
      · have one : sdev.toList.length ≤ 1 := by cases sdev <;> simp
        rw [List.length_append]
        omega
      · intro other member
        obtain old | new := List.mem_append.mp member
        · exact held.2 other old
        · exact formed other (Option.mem_toList.mp new)
    refine loop.bind fun sdevs held => Safe.pure fun entered same => ?_
    cases same
    refine ⟨?_, held.2⟩
    have few : devMax response.2 list.strL ≤ 508 := by
      have size := reached.1
      simp only [aaudioBceQueueElementSize] at size
      simp only [devMax, start]
      split
      · omega
      · omega
    omega
  obtain ⟨formed, fine⟩ := run s trivial
  exact ⟨fine, formed⟩

end DeviceInit

end AppleBce
