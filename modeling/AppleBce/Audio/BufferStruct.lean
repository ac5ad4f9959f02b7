import AppleBce.Audio.HwInfo
import AppleBce.Audio.Message
import AppleBce.Basis.Loop
import AppleBce.Basis.SlotTable

namespace AppleBce

open Basis

def aaudioSig : Nat := 0x19870423

/-- The size of `devices` in `struct aaudio_buffer_struct`. -/
def bufferStructDevices : Nat := 20

/-- The size of `output_streams` in `struct aaudio_buffer_struct_device`. -/
def bufferStructStreams : Nat := 5

def aaudioDeviceMaxBufferCount : Nat := 1

def aaudioBufferIdNone : Nat := 0xff

/-- `struct aaudio_buffer_struct_buffer`. -/
structure BsBuffer where
  address : Nat
  size : Nat
  deriving DecidableEq, Repr

/-- `struct aaudio_buffer_struct_stream`. -/
structure BsStream where
  numBuffers : Nat
  buffers : Nat → BsBuffer

/-- `struct aaudio_buffer_struct_device`, with the memory from `output_streams` on and the string that
starts at `name`. -/
structure BsDevice where
  name : List Byte
  numInputStreams : Nat
  numOutputStreams : Nat
  inputStreams : Nat → BsStream
  outputStreams : Nat → BsStream

/-- `struct aaudio_buffer_struct`. -/
structure BufferStruct where
  signature : Nat
  numDevices : Nat
  devices : Nat → BsDevice

def BufferStruct.setDevice (bs : BufferStruct) (i : Nat) (dev : BsDevice) : BufferStruct :=
  { bs with devices := Function.update bs.devices i dev }

@[simp] theorem BufferStruct.setDevice_self (bs : BufferStruct) (i : Nat) (dev : BsDevice) :
    (bs.setDevice i dev).devices i = dev :=
  Function.update_self ..

theorem BufferStruct.setDevice_ne (bs : BufferStruct) (dev : BsDevice) {i m : Nat} (other : m ≠ i) :
    (bs.setDevice i dev).devices m = bs.devices m :=
  Function.update_of_ne other ..

/-- `struct aaudio_dma_buf`, with `ptr` as the offset in its memory. -/
structure AaudioDmaBuf where
  dmaAddr : Nat
  ptr : Nat
  size : Nat
  deriving DecidableEq, Repr

/-- The fields of `struct aaudio_stream` that are set up with the buffers. -/
structure StreamBuffers where
  desc : AaudioAppleDescription
  bufferCnt : Nat
  buffers : Option (List AaudioDmaBuf)
  alsaHwDesc : Option SndPcmHardware
  hostAllocated : Bool

/-- The fields of `struct aaudio_subdevice` that `aaudio_init_bs` uses. -/
structure BsSubdevice where
  uid : List Byte
  bufId : Nat
  inStreamCnt : Nat
  inStreams : Nat → StreamBuffers
  outStreamCnt : Nat
  outStreams : Nat → StreamBuffers

/-- An index that `aaudio_init_bs` uses: into `devices`, into the streams of one of them, or into the
buffers of a stream of the driver. -/
inductive BsAccess
  | device (i : Nat)
  | inputStream (i j : Nat)
  | outputStream (i j : Nat)
  | buffer (k : Nat)
  deriving DecidableEq, Repr

/-- The index is inside its array. -/
def BsAccess.InRange : BsAccess → Prop
  | device i => i < bufferStructDevices
  | inputStream i j => i < bufferStructDevices ∧ j < bufferStructStreams
  | outputStream i j => i < bufferStructDevices ∧ j < bufferStructStreams
  | buffer k => k < aaudioDeviceMaxBufferCount

/-- What `aaudio_init_bs` gets from outside: the registers, the address of the shared memory, and for
each stream which allocations succeed. -/
structure InitBsEnv where
  gpr : Nat → Nat
  machine : OpenShifts
  regMemBsDma : Nat
  kmallocBuffers : Nat → Nat → Bool
  kmallocHw : Nat → Nat → Bool
  dmaAlloc : Nat → Option Nat
  kmallocHostBuffers : Nat → Bool
  kmallocHostHw : Nat → Bool

/-- What `aaudio_init_bs` works on: the shared struct, the list of subdevices, its running index, whether
it has left the second loop, and the indices it has used. -/
structure BsRun where
  bs : BufferStruct
  sdevs : List BsSubdevice
  index : Nat
  stopped : Bool
  touched : List BsAccess

namespace BsRun

def touch (s : BsRun) (accesses : List BsAccess) : BsRun :=
  { s with touched := s.touched ++ accesses }

def setSdev (s : BsRun) (k : Nat) (sdev : BsSubdevice) : BsRun :=
  { s with sdevs := s.sdevs.set k sdev }

def setDevice (s : BsRun) (i : Nat) (dev : BsDevice) : BsRun :=
  { s with bs := s.bs.setDevice i dev }

end BsRun

section Streams

variable (env : InitBsEnv)

/-- The description of the hardware of a stream, or `NULL`. -/
def hwDesc (allocated : Bool) (desc : AaudioAppleDescription) (size : Nat) : Option SndPcmHardware :=
  if allocated then
    match (aaudioCreateHwInfo env.machine desc size).1 with
    | .ok hw => some hw
    | .error _ => none
  else none

/-- `aaudio_init_bs_stream` for output stream `j` of device `i`. -/
def aaudioInitBsStream (i j : Nat) (strm : StreamBuffers) (bsStrm : BsStream) :
    StreamBuffers × List BsAccess :=
  let bufferCnt :=
    if aaudioDeviceMaxBufferCount < bsStrm.numBuffers then aaudioDeviceMaxBufferCount
    else bsStrm.numBuffers
  let strm := { strm with bufferCnt }
  if bufferCnt = 0 then (strm, [])
  else if !env.kmallocBuffers i j then ({ strm with buffers := none }, [])
  else
    let buffers := (List.range bufferCnt).map fun k =>
      { dmaAddr := env.regMemBsDma + (bsStrm.buffers k).address
        ptr := (bsStrm.buffers k).address
        size := (bsStrm.buffers k).size : AaudioDmaBuf }
    let strm := { strm with buffers := some buffers }
    let touched := (List.range bufferCnt).map BsAccess.buffer
    if bufferCnt = 1 then
      ({ strm with alsaHwDesc := hwDesc env (env.kmallocHw i j) strm.desc (bsStrm.buffers 0).size },
        touched ++ [.buffer 0])
    else (strm, touched)

/-- `aaudio_init_bs_stream_host` for the subdevice in slot `i`. -/
def aaudioInitBsStreamHost (i : Nat) (strm : StreamBuffers) (bsStrm : BsStream) :
    StreamBuffers × BsStream × List BsAccess :=
  let size := strm.desc.bytesPerPacket * 16640 % 2 ^ 32
  match env.dmaAlloc i with
  | none => (strm, bsStrm, [])
  | some dmaAddr =>
    if !env.kmallocHostBuffers i then
      ({ strm with bufferCnt := 0, buffers := none },
        { numBuffers := 0, buffers := Function.update bsStrm.buffers 0 ⟨0, 0⟩ }, [])
    else
      ({ strm with
          bufferCnt := 1
          buffers := some [{ dmaAddr, ptr := 0, size }]
          hostAllocated := true
          alsaHwDesc := hwDesc env (env.kmallocHostHw i) strm.desc size },
        { numBuffers := 1, buffers := Function.update bsStrm.buffers 0 ⟨dmaAddr, size⟩ },
        [.buffer 0])

end Streams

section InitBs

variable (env : InitBsEnv)

/-- `aaudio_find_dev_by_uid`, as the place in the list. -/
def aaudioFindDevByUid (sdevs : List BsSubdevice) (uid : List Byte) : Option Nat :=
  sdevs.findIdx? fun sdev => uid == sdev.uid

/-- A round of the loop over the output streams of device `i`, which belongs to subdevice `k`. -/
def initBsOutputStream (i k j : Nat) (s : BsRun) : BsRun :=
  let bsStrm := (s.bs.devices i).outputStreams j
  let s := s.touch [.outputStream i j]
  match s.sdevs[k]? with
  | none => s
  | some sdev =>
    if j < sdev.outStreamCnt then
      let (strm, touched) := aaudioInitBsStream env i j (sdev.outStreams j) bsStrm
      (s.setSdev k { sdev with outStreams := Function.update sdev.outStreams j strm }).touch touched
    else s

/-- A round of the loop over the devices that the T2 has entered. -/
def initBsDevice (i : Nat) (s : BsRun) : BsRun :=
  let dev := s.bs.devices i
  let s := s.touch [.device i]
  match aaudioFindDevByUid s.sdevs dev.name with
  | none => s
  | some k =>
    match s.sdevs[k]? with
    | none => s
    | some sdev =>
      let s := (s.setSdev k { sdev with bufId := i % 2 ^ 8 }).setDevice i { dev with numInputStreams := 0 }
      forLoop dev.numOutputStreams (initBsOutputStream env i k) s

/-- A round of the loop that enters the other subdevices. -/
def createBsDevice (k : Nat) (s : BsRun) : BsRun :=
  match s.sdevs[k]? with
  | none => s
  | some sdev =>
    if s.stopped then s
    else if sdev.bufId ≠ aaudioBufferIdNone then s
    else if bufferStructDevices ≤ s.index then { s with stopped := true }
    else
      let i := s.index
      let s := (s.setSdev k { sdev with bufId := i % 2 ^ 8 }).touch [.device i]
      let s := s.setDevice i
        { s.bs.devices i with name := sdev.uid.take 127, numInputStreams := 0, numOutputStreams := 0 }
      { s with index := i + 1, bs := { s.bs with numDevices := (i + 1) % 2 ^ 8 } }

/-- A round of the loop that gives the input streams their buffers. -/
def initBsInputStream (k : Nat) (s : BsRun) : BsRun :=
  match s.sdevs[k]? with
  | none => s
  | some sdev =>
    if sdev.bufId = aaudioBufferIdNone then s
    else if sdev.inStreamCnt = 1 then
      let i := sdev.bufId
      let dev := s.bs.devices i
      let (strm, bsStrm, touched) := aaudioInitBsStreamHost env i (sdev.inStreams 0) (dev.inputStreams 0)
      let s := s.touch ([.device i, .inputStream i 0] ++ touched)
      (s.setSdev k { sdev with inStreams := Function.update sdev.inStreams 0 strm }).setDevice i
        { dev with inputStreams := Function.update dev.inputStreams 0 bsStrm, numInputStreams := 1 }
    else s

/-- The header is one that `aaudio_init_bs` accepts. -/
def BsHeader (bs : BufferStruct) : Prop :=
  3 ≤ env.gpr 0 ∧ env.gpr 1 = aaudioSig ∧ bs.signature = aaudioSig

instance (bs : BufferStruct) : Decidable (BsHeader env bs) := inferInstanceAs (Decidable (_ ∧ _ ∧ _))

/-- The first loop runs over this many devices. -/
def BufferStruct.entered (bs : BufferStruct) : Nat :=
  min bs.numDevices bufferStructDevices

def aaudioInitBs (bs : BufferStruct) (sdevs : List BsSubdevice) : Except Errno Unit × BsRun :=
  let start : BsRun := { bs, sdevs, index := 0, stopped := false, touched := [] }
  if env.gpr 0 < 3 then (.error .inval, start)
  else if env.gpr 1 ≠ aaudioSig then (.error .inval, start)
  else if bs.signature ≠ aaudioSig then (.error .inval, start)
  else
    let s := forLoop bs.entered (initBsDevice env) start
    let s := forLoop sdevs.length createBsDevice { s with index := bs.entered, stopped := false }
    let s := forLoop sdevs.length (initBsInputStream env) s
    (.ok (), s)

end InitBs

end AppleBce
