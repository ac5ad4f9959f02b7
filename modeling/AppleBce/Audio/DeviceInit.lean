import AppleBce.Audio.ControlList
import AppleBce.Audio.HwInfo
import AppleBce.Audio.ReplyBuffer
import AppleBce.Audio.Volume
import AppleBce.Basis.Logged

namespace AppleBce

open Basis

def aaudioDeviceMaxControls : Nat := 32

def aaudioClassVolume : Nat := 0x766c6d65
def aaudioClassMute : Nat := 0x6d757465

def aaudioPropScopeGlobal : Nat := 0x676c6f62
def aaudioPropScopeInput : Nat := 0x696e7074
def aaudioPropScopeOutput : Nat := 0x6f757470

def aaudioPropUid : Nat := 0x75696420
def aaudioPropJackPlugged : Nat := 0x6a61636b
def aaudioPropLatency : Nat := 0x6c746e63
def aaudioPropPhysFormat : Nat := 0x70667420
def aaudioPropClass : Nat := 0x636c6173
def aaudioPropLevelDbRange : Nat := 0x6c636472

def aaudioFormatLpcm : Nat := 0x6c70636d

/-- `AAUDIO_PROP`. -/
def aaudioProp (scope selector element : Nat) : AaudioPropAddr :=
  { scope, selector, element }

/-- What the initialisation asks the T2. -/
inductive InitCommand
  | getDeviceList
  | getProperty (devid obj : Nat) (prop : AaudioPropAddr)
  | propertyListener (devid obj : Nat) (prop : AaudioPropAddr)
  | getInputStreamList (devid : Nat)
  | getOutputStreamList (devid : Nat)
  | getControlList (devid : Nat)
  deriving DecidableEq, Repr

/-- What becomes of a command: no submission can be reserved for it, or a response comes for its tag, before
or after the wait runs out, or none does. -/
structure CmdOutcome where
  refused : Option Errno
  response : Option (AaudioMsg Byte)
  inTime : Bool

/-- The memory that an access of the initialisation is into: an element of the in queue, a buffer of
`aaudio_reply_alloc`, or an array of `struct aaudio_subdevice`. -/
inductive InitMemory
  | slot
  | reply
  | uid
  | inStreams
  | outStreams
  | controls
  deriving DecidableEq, Repr

def InitMemory.size : InitMemory → Nat
  | slot | reply => aaudioBceQueueElementSize
  | uid => aaudioDeviceMaxUidLen + 1
  | inStreams | outStreams => aaudioDeviceMaxStreams
  | controls => aaudioDeviceMaxControls

/-- What the T2's answers decide: where an access is and how much it takes, what `aaudio_f64_milli` is
given, and whether a calculation of a reader leaves its range. -/
inductive InitAccess
  | touch (memory : InitMemory) (first count : Nat)
  | range (least most : BitVec 64)
  | wrap

def InitAccess.Fine : InitAccess → Prop
  | touch memory first count => first + count ≤ memory.size
  | range least most => (AaudioControl.ofRange (least, most)).isSome
  | wrap => False

structure InitState where
  commands : List InitCommand
  allocs : Nat

/-- The T2 answers as the commands up to then let it, and memory is there or not and holds anything. -/
structure InitEnv where
  alive : Except Errno Unit
  outcome : List InitCommand → CmdOutcome
  kmalloc : Nat → Option (Nat → Byte)
  sndJackNew : List InitCommand → Bool

abbrev InitM := Logged InitState InitAccess

/-- `struct aaudio_stream`, as far as it is initialised here. -/
structure InitStream where
  id : Nat
  desc : AaudioAppleDescription
  formatId : Nat
  latency : Nat

/-- `struct aaudio_control`. -/
structure InitControl extends AaudioControl where
  id : Nat
  classId : Nat
  scope : Nat
  element : Nat

/-- `struct aaudio_subdevice`, with the used parts of its arrays, and what is reported of the jack. -/
structure InitSubdevice where
  devId : Nat
  uid : List Byte
  inLatency : Nat
  outLatency : Nat
  inStreams : List InitStream
  outStreams : List InitStream
  isPcm : Bool
  controls : List InitControl
  plugged : Option Nat

namespace DeviceInit

variable (env : InitEnv)

def touch (memory : InitMemory) (first count : Nat) : InitM Unit :=
  Logged.record (.touch memory first count)

def kmalloc : InitM (Option (Nat → Byte)) :=
  Logged.change fun s => ⟨env.kmalloc s.allocs, { s with allocs := s.allocs + 1 }, []⟩

def aaudioReplyAlloc : InitM (Option (AaudioMsg Byte)) := do
  let memory ← kmalloc env
  pure (memory.map fun data => ⟨data, aaudioBceQueueElementSize⟩)

def submit (command : InitCommand) : InitM CmdOutcome :=
  Logged.change fun s =>
    ⟨env.outcome (s.commands ++ [command]), { s with commands := s.commands ++ [command] }, []⟩

/-- `aaudio_send_cmd_sync`, with the buffer it leaves. -/
def aaudioSendCmdSync (command : InitCommand) (buf : AaudioMsg Byte) :
    InitM (Except Errno Unit × AaudioMsg Byte) := do
  let outcome ← submit env command
  match outcome.refused with
  | some e => pure (.error e, buf)
  | none =>
    match outcome.response.filter fun reply => aaudioMsgHeaderSize ≤ reply.size with
    | none => pure (.error .timedout, buf)
    | some reply => do
      touch .slot 0 (buf.copyReply reply).size
      touch .reply 0 (buf.copyReply reply).size
      pure (if outcome.inTime then .ok () else .error .timedout, buf.copyReply reply)

/-- A function `aaudio_msg_read_*` on a buffer. -/
def readReply {α : Type} (reader : Nat → MsgReader α) (buf : AaudioMsg Byte) : InitM (Except Errno α) := do
  touch .reply 0 ((reader buf.size).run buf.data 0).reach
  match ((reader buf.size).run buf.data 0).result with
  | .error (.errno e) => pure (.error e)
  | .error .wrap => do
    Logged.record .wrap
    pure (.error .inval)
  | .ok (a, _) => pure (.ok a)

/-- A command that takes its reply in the buffer of its caller. -/
def cmdWithBuffer {α : Type} (command : InitCommand) (reader : Nat → MsgReader α) (buf : AaudioMsg Byte) :
    InitM (Except Errno α × AaudioMsg Byte) := do
  let sent ← aaudioSendCmdSync env command buf
  match sent.1 with
  | .error e => pure (.error e, sent.2)
  | .ok () => do
    let response ← readReply reader sent.2
    pure (response, sent.2)

def aaudioCmdGetDeviceList (buf : AaudioMsg Byte) : InitM (Except Errno StreamListResponse × AaudioMsg Byte) :=
  cmdWithBuffer env .getDeviceList MsgReader.aaudioMsgReadGetDeviceListResponse buf

def aaudioCmdGetInputStreamList (devid : Nat) (buf : AaudioMsg Byte) :
    InitM (Except Errno StreamListResponse × AaudioMsg Byte) :=
  cmdWithBuffer env (.getInputStreamList devid) MsgReader.aaudioMsgReadGetInputStreamListResponse buf

def aaudioCmdGetOutputStreamList (devid : Nat) (buf : AaudioMsg Byte) :
    InitM (Except Errno StreamListResponse × AaudioMsg Byte) :=
  cmdWithBuffer env (.getOutputStreamList devid) MsgReader.aaudioMsgReadGetOutputStreamListResponse buf

def aaudioCmdGetControlList (devid : Nat) (buf : AaudioMsg Byte) :
    InitM (Except Errno MsgReader.ControlListResponse × AaudioMsg Byte) :=
  cmdWithBuffer env (.getControlList devid) MsgReader.aaudioMsgReadGetControlListResponse buf

def aaudioCmdGetProperty (devid obj : Nat) (prop : AaudioPropAddr) (buf : AaudioMsg Byte) :
    InitM (Except Errno PropertyResponse × AaudioMsg Byte) :=
  cmdWithBuffer env (.getProperty devid obj prop) MsgReader.aaudioMsgReadGetPropertyResponse buf

/-- `aaudio_cmd_property_listener`, which has a buffer of its own. -/
def aaudioCmdPropertyListener (devid obj : Nat) (prop : AaudioPropAddr) : InitM (Except Errno Unit) := do
  let reply ← aaudioReplyAlloc env
  match reply with
  | none => pure (.error .nomem)
  | some reply => do
    let response ← cmdWithBuffer env (.propertyListener devid obj prop)
      MsgReader.aaudioMsgReadPropertyListenerResponse reply
    pure (response.1.map fun _ => ())

/-- `aaudio_cmd_get_primitive_property`, with the bytes that it copies. -/
def aaudioCmdGetPrimitiveProperty (devid obj : Nat) (prop : AaudioPropAddr) (dataSize : Nat) :
    InitM (Except Errno (Nat → Byte)) := do
  let reply ← aaudioReplyAlloc env
  match reply with
  | none => pure (.error .nomem)
  | some reply => do
    let response ← aaudioCmdGetProperty env devid obj prop reply
    match response.1 with
    | .error e => pure (.error e)
    | .ok property =>
      if property.dataSize ≠ dataSize then pure (.error .inval)
      else do
        touch .reply property.data dataSize
        pure (.ok fun i => response.2.data (property.data + i))

/-- `strm->desc`, and the `format_id` in it. -/
def readDesc (data : Nat → Byte) : AaudioAppleDescription × Nat :=
  ({ sampleRateDouble := BitVec.ofNat 64 (readVal data 0 8)
     formatFlags := BitVec.ofNat 32 (readVal data 12 4)
     bytesPerPacket := readVal data 16 4
     framesPerPacket := readVal data 20 4
     channelsPerFrame := readVal data 28 4
     bitsPerChannel := readVal data 32 4 }, readVal data 8 4)

/-- A value of 32 bits that stays 0 when the query fails. -/
def queryU32 (devid obj : Nat) (prop : AaudioPropAddr) : InitM Nat := do
  let value ← aaudioCmdGetPrimitiveProperty env devid obj prop 4
  match value with
  | .error _ => pure 0
  | .ok data => pure (readVal data 0 4)

def aaudioInitStreamInfo (devid id : Nat) : InitM InitStream := do
  let desc ← aaudioCmdGetPrimitiveProperty env devid id (aaudioProp aaudioPropScopeGlobal aaudioPropPhysFormat 0) 40
  let latency ← queryU32 env devid id (aaudioProp aaudioPropScopeGlobal aaudioPropLatency 0)
  match desc with
  | .error _ => pure ⟨id, (readDesc fun _ => 0).1, 0, latency⟩
  | .ok data => pure ⟨id, (readDesc data).1, (readDesc data).2, latency⟩

/-- The loop of `aaudio_init_dev` for the streams of one direction. -/
def initStreams (memory : InitMemory) (devid deviceLatency : Nat) (list : StreamListResponse)
    (buf : AaudioMsg Byte) :
    InitM (List InitStream) :=
  Logged.loop (min list.strCnt aaudioDeviceMaxStreams) (fun i streams => do
    touch .reply (list.strL + 8 * i) 8
    touch memory i 1
    let strm ← aaudioInitStreamInfo env devid (readVal buf.data (list.strL + 8 * i) 8)
    pure (streams ++ [{ strm with latency := (strm.latency + deviceLatency) % 2 ^ 32 }])) []

/-- The turn of the loop of `aaudio_init_controls` for one entry of the list. The loop ends when the
array is full, and a turn after that does nothing. -/
def initControl (devid : Nat) (list : MsgReader.ControlListResponse) (buf : AaudioMsg Byte) (i : Nat)
    (controls : List InitControl) : InitM (List InitControl) :=
  if aaudioDeviceMaxControls ≤ controls.length then pure controls
  else do
    touch .controls controls.length 1
    touch .reply (list.ctrlL + 8 * i) 8
    touch .reply (list.scopeL + 8 * i) 8
    touch .reply (list.elemL + 8 * i) 8
    let id := readVal buf.data (list.ctrlL + 8 * i) 8
    let scope := readVal buf.data (list.scopeL + 8 * i) 8 % 2 ^ 32
    let element := readVal buf.data (list.elemL + 8 * i) 8 % 2 ^ 32
    let classId ← aaudioCmdGetPrimitiveProperty env devid id (aaudioProp aaudioPropScopeGlobal aaudioPropClass 0) 4
    match classId with
    | .error _ => pure controls
    | .ok data =>
      if readVal data 0 4 = aaudioClassVolume then do
        let range ← aaudioCmdGetPrimitiveProperty env devid id
          (aaudioProp aaudioPropScopeGlobal aaudioPropLevelDbRange 0) 16
        match range with
        | .error _ => pure controls
        | .ok range => do
          let least := BitVec.ofNat 64 (readVal range 0 8)
          let most := BitVec.ofNat 64 (readVal range 8 8)
          Logged.record (.range least most)
          match AaudioControl.ofRange (least, most) with
          | none => pure controls
          | some c => pure (controls ++ [⟨c, id, aaudioClassVolume, scope, element⟩])
      else if readVal data 0 4 = aaudioClassMute then
        pure (controls ++ [⟨⟨0, 0⟩, id, aaudioClassMute, scope, element⟩])
      else pure controls

def aaudioInitControls (devid : Nat) : InitM (List InitControl) := do
  let reply ← aaudioReplyAlloc env
  match reply with
  | none => pure []
  | some reply => do
    let response ← aaudioCmdGetControlList env devid reply
    match response.1 with
    | .error _ => pure []
    | .ok list => Logged.loop list.ctrlCnt (initControl env devid list response.2) []

/-- A string as `strcmp` sees it. -/
def cString (bytes : List Byte) : List Byte :=
  bytes.takeWhile (· ≠ 0)

def codecOutput : List Byte :=
  "Codec Output".toList.map fun c => BitVec.ofNat 8 c.toNat

/-- `aaudio_handle_jack_connection_change` with a jack: what it reports. -/
def aaudioHandleJackConnectionChange (devid : Nat) : InitM (Option Nat) := do
  let plugged ← aaudioCmdGetPrimitiveProperty env devid devid
    (aaudioProp aaudioPropScopeOutput aaudioPropJackPlugged 0) 4
  match plugged with
  | .error _ => pure none
  | .ok data => pure (some (readVal data 0 4))

/-- The part of `aaudio_init_dev` for the headphone jack. -/
def initJack (devid : Nat) (uid : List Byte) : InitM (Option Nat) :=
  if cString uid ≠ codecOutput then pure none
  else do
    let created ← Logged.change fun s : InitState => ⟨env.sndJackNew s.commands, s, []⟩
    let _ ← aaudioCmdPropertyListener env devid devid (aaudioProp aaudioPropScopeOutput aaudioPropJackPlugged 0)
    if created then aaudioHandleJackConnectionChange env devid else pure none

/-- `aaudio_init_dev` behind the uid, up to the controls; `none` when it gives the device up. -/
def initDevStreams (devid inLatency outLatency : Nat) (buf : AaudioMsg Byte) :
    InitM (Option (List InitStream × List InitStream)) := do
  let ins ← aaudioCmdGetInputStreamList env devid buf
  match ins.1 with
  | .error _ => pure none
  | .ok list => do
    let inStreams ← initStreams env .inStreams devid inLatency list ins.2
    let outs ← aaudioCmdGetOutputStreamList env devid ins.2
    match outs.1 with
    | .error _ => pure none
    | .ok list => do
      let outStreams ← initStreams env .outStreams devid outLatency list outs.2
      pure (some (inStreams, outStreams))

/-- `aaudio_init_dev` behind the query of the uid. -/
def initDevUid (devid : Nat) (property : PropertyResponse) (buf : AaudioMsg Byte) :
    InitM (Option InitSubdevice) := do
  touch .reply property.data property.dataSize
  touch .uid 0 property.dataSize
  touch .uid property.dataSize 1
  let uid := (List.range property.dataSize).map fun i => buf.data (property.data + i)
  let inLatency ← queryU32 env devid devid (aaudioProp aaudioPropScopeInput aaudioPropLatency 0)
  let outLatency ← queryU32 env devid devid (aaudioProp aaudioPropScopeOutput aaudioPropLatency 0)
  let streams ← initDevStreams env devid inLatency outLatency buf
  match streams with
  | none => pure none
  | some (inStreams, outStreams) => do
    let controls ← aaudioInitControls env devid
    let plugged ← initJack env devid uid
    let isPcm := (inStreams ++ outStreams).any fun strm => strm.formatId = aaudioFormatLpcm
    pure (some { devId := devid, uid, inLatency, outLatency, inStreams, outStreams, isPcm, controls, plugged })

/-- `aaudio_init_dev`, with the subdevice that it enters into the list. -/
def aaudioInitDev (devid : Nat) : InitM (Option InitSubdevice) := do
  let buf ← aaudioReplyAlloc env
  let sdev ← kmalloc env
  match sdev, buf with
  | some _, some buf => do
    let response ← aaudioCmdGetProperty env devid devid (aaudioProp aaudioPropScopeGlobal aaudioPropUid 0) buf
    match response.1 with
    | .error _ => pure none
    | .ok property =>
      if aaudioDeviceMaxUidLen < property.dataSize then pure none
      else initDevUid env devid property response.2
  | _, _ => pure none

/-- The number of ids that fit behind `devL` in a reply. -/
def devMax (buf : AaudioMsg Byte) (devL : Nat) : Nat :=
  if devL < buf.size then (buf.size - devL) / 8 else 0

/-- `aaudio_init_cmd`, with the list of subdevices. -/
def aaudioInitCmd : InitM (Except Errno (List InitSubdevice)) :=
  match env.alive with
  | .error e => pure (.error e)
  | .ok () => do
    let buf ← aaudioReplyAlloc env
    match buf with
    | none => pure (.error .nomem)
    | some buf => do
      let response ← aaudioCmdGetDeviceList env buf
      match response.1 with
      | .error e => pure (.error e)
      | .ok list => do
        let sdevs ← Logged.loop (min list.strCnt (devMax response.2 list.strL)) (fun i sdevs => do
          touch .reply (list.strL + 8 * i) 8
          let sdev ← aaudioInitDev env (readVal response.2.data (list.strL + 8 * i) 8)
          pure (sdevs ++ sdev.toList)) []
        pure (.ok sdevs)

end DeviceInit

end AppleBce
