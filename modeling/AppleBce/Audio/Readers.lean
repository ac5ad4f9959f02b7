import AppleBce.Audio.Message
import AppleBce.Basis.ByteReader
import Mathlib.Algebra.Group.Nat.Defs

namespace AppleBce

open Basis

/-- How a reader of a message ends without success. The driver never returns `wrap`: it stands for
a calculation that leaves the range of 64 bits. -/
inductive ReadError
  | errno (e : Errno)
  | wrap
  deriving DecidableEq, Repr

abbrev MsgReader (α : Type) := ByteReader Byte ReadError α

structure AaudioMsgBase where
  msg : Nat
  status : Nat
  deriving DecidableEq, Repr

structure AaudioPropAddr where
  scope : Nat
  selector : Nat
  element : Nat
  deriving DecidableEq, Repr

def aaudioMsgStartIoResponse : Nat := 1

def aaudioMsgStopIoResponse : Nat := 3

def aaudioMsgUpdateTimestamp : Nat := 4

def aaudioMsgSetPropertyResponse : Nat := 10

def aaudioMsgPropertyListenerResponse : Nat := 12

def aaudioMsgPropertyChanged : Nat := 13

def aaudioMsgSetInputStreamAddressRangesResponse : Nat := 19

def aaudioMsgGetControlListResponse : Nat := 29

def aaudioMsgSetRemoteAccessResponse : Nat := 33

def aaudioMsgGetDeviceListResponse : Nat := 102

namespace MsgReader

/-- `READ_START_COMMON`: the check of the base, behind which the offset starts. -/
def readStart (size type : Nat) (fatalStatus : Bool) : MsgReader Unit where
  run data _ :=
    ⟨match aaudioMsgVerify ⟨data, size⟩ type fatalStatus with
      | .error e => .error (.errno e)
      | .ok () => .ok ((), aaudioMsgHeaderSize + aaudioMsgBaseSize),
      if size < aaudioMsgHeaderSize + aaudioMsgBaseSize then 0
      else aaudioMsgHeaderSize + aaudioMsgBaseSize⟩
  footprint data other offset same := by
    have base : 21 ≤ size → ∀ i < 21, other i = data i := by
      intro long i below
      have enough : ¬size < aaudioMsgHeaderSize + aaudioMsgBaseSize := Nat.not_lt.mpr long
      rw [if_neg enough] at same
      exact same i below
    have verified : aaudioMsgVerify ⟨other, size⟩ type fatalStatus =
        aaudioMsgVerify ⟨data, size⟩ type fatalStatus :=
      @aaudioMsgVerify_congr ⟨other, size⟩ ⟨data, size⟩ Iff.rfl base type fatalStatus
    rw [verified]

/-- `READ_VAL` of a type of the given width. -/
def readVar (width : Nat) : MsgReader Nat :=
  ByteReader.field width (fun data start => readVal data start width)
    fun _ _ _ same => readVal_congr same

/-- `READ_DEVID_VAR`. -/
def readDevidVar : MsgReader Nat :=
  ByteReader.peek 5 8 (fun data => readVal data 5 8) fun _ _ same => readVal_congr same

def fail {α : Type} (e : Errno) : MsgReader α :=
  ByteReader.fail (.errno e)

/-- The three fields in which a message carries a property address. -/
def readPropAddr : MsgReader AaudioPropAddr := do
  let element ← readVar 4
  let scope ← readVar 4
  let selector ← readVar 4
  pure { scope, selector, element }

def aaudioMsgReadBase (size : Nat) : MsgReader AaudioMsgBase :=
  if size < aaudioMsgHeaderSize + aaudioMsgBaseSize * 2 then fail .inval
  else
    ByteReader.peek 13 8
      (fun data => { msg := readVal data 13 4, status := readVal data 17 4 })
      (by
        intro data other same
        have first : readVal other 13 4 = readVal data 13 4 :=
          readVal_congr fun i low high => same i low (by omega)
        have second : readVal other 17 4 = readVal data 17 4 :=
          readVal_congr fun i low high => same i (by omega) high
        rw [first, second])

def aaudioMsgReadStartIoResponse (size : Nat) : MsgReader Unit :=
  readStart size aaudioMsgStartIoResponse false

def aaudioMsgReadStopIoResponse (size : Nat) : MsgReader Unit :=
  readStart size aaudioMsgStopIoResponse false

/-- The device, the timestamp and the update seed. -/
def aaudioMsgReadUpdateTimestamp (size : Nat) : MsgReader (Nat × Nat × Nat) := do
  readStart size aaudioMsgUpdateTimestamp false
  let devid ← readDevidVar
  let timestamp ← readVar 8
  let updateSeed ← readVar 8
  pure (devid, timestamp, updateSeed)

def aaudioMsgReadGetPropertyResponse (size : Nat) : MsgReader PropertyResponse := do
  readStart size aaudioMsgGetPropertyResponse true
  let obj ← readVar 8
  let prop ← readPropAddr
  let dataSize ← readVar 8
  let data ← ByteReader.position
  pure { obj, element := prop.element, scope := prop.scope, selector := prop.selector, dataSize, data }

def aaudioMsgReadSetPropertyResponse (size : Nat) : MsgReader Nat := do
  readStart size aaudioMsgSetPropertyResponse true
  let obj ← readVar 8
  pure obj

def aaudioMsgReadPropertyListenerResponse (size : Nat) : MsgReader (Nat × AaudioPropAddr) := do
  readStart size aaudioMsgPropertyListenerResponse false
  let obj ← readVar 8
  let prop ← readPropAddr
  pure (obj, prop)

/-- The device, the object and the address of the property. -/
def aaudioMsgReadPropertyChanged (size : Nat) : MsgReader (Nat × Nat × AaudioPropAddr) := do
  readStart size aaudioMsgPropertyChanged false
  let devid ← readDevidVar
  let obj ← readVar 8
  let prop ← readPropAddr
  pure (devid, obj, prop)

def aaudioMsgReadSetInputStreamAddressRangesResponse (size : Nat) : MsgReader Unit :=
  readStart size aaudioMsgSetInputStreamAddressRangesResponse false

/-- What the readers of a list of streams or devices do. -/
def readIdList (type size : Nat) : MsgReader StreamListResponse := do
  readStart size type false
  let strCnt ← readVar 8
  let strL ← ByteReader.position
  pure { strCnt, strL }

def aaudioMsgReadGetInputStreamListResponse (size : Nat) : MsgReader StreamListResponse :=
  readIdList aaudioMsgGetInputStreamListResponse size

def aaudioMsgReadGetOutputStreamListResponse (size : Nat) : MsgReader StreamListResponse :=
  readIdList aaudioMsgGetOutputStreamListResponse size

def aaudioMsgReadSetRemoteAccessResponse (size : Nat) : MsgReader Unit :=
  readStart size aaudioMsgSetRemoteAccessResponse false

def aaudioMsgReadGetDeviceListResponse (size : Nat) : MsgReader StreamListResponse :=
  readIdList aaudioMsgGetDeviceListResponse size

/-- What `aaudio_msg_read_get_control_list_response` stores. -/
structure ControlListResponse where
  ctrlL : Nat
  elemL : Nat
  scopeL : Nat
  ctrlCnt : Nat
  deriving DecidableEq, Repr

/-- A calculation in `size_t` or `u64`. -/
def word (x : Nat) : MsgReader Nat :=
  if x < 2 ^ 64 then pure x else ByteReader.fail .wrap

/-- `offset += cnt * sizeof(u64)`. -/
def skipArray (cnt : Nat) : MsgReader Unit := do
  let length ← word (cnt * 8)
  let offset ← ByteReader.position
  let _ ← word (offset + length)
  ByteReader.advance length

def aaudioMsgReadGetControlListResponse (size : Nat) : MsgReader ControlListResponse := do
  readStart size aaudioMsgGetControlListResponse false
  let offset ← ByteReader.position
  if size < offset + 8 then fail .inval
  else do
    let cnt ← readVar 8
    if (2 ^ 64 - 1 - 2 * 8) / (3 * 8) < cnt then fail .inval
    else do
      let ids ← word (cnt * 3)
      let arrays ← word (ids * 8)
      let need ← word (arrays + 2 * 8)
      let offset ← ByteReader.position
      if size - offset < need then fail .inval
      else do
        let ctrlL ← ByteReader.position
        skipArray cnt
        let n ← readVar 8
        if n ≠ cnt then fail .inval
        else do
          let elemL ← ByteReader.position
          skipArray cnt
          let n ← readVar 8
          if n ≠ cnt then fail .inval
          else do
            let scopeL ← ByteReader.position
            skipArray cnt
            pure { ctrlL, elemL, scopeL, ctrlCnt := cnt }

section Run

variable {α : Type} {data : Nat → Byte} {offset size type : Nat} {fatalStatus : Bool}

@[simp] theorem run_readVar (width : Nat) :
    (readVar width).run data offset = ⟨.ok (readVal data offset width, offset + width), offset + width⟩ :=
  rfl

@[simp] theorem run_readDevidVar :
    readDevidVar.run data offset = ⟨.ok (readVal data 5 8, offset), 13⟩ := rfl

@[simp] theorem run_fail (e : Errno) :
    (fail e : MsgReader α).run data offset = ⟨.error (.errno e), 0⟩ := rfl

theorem run_word {x : Nat} (fits : x < 2 ^ 64) : (word x).run data offset = ⟨.ok (x, offset), 0⟩ := by
  rw [word, if_pos fits]
  rfl

@[simp] theorem run_readPropAddr :
    readPropAddr.run data offset =
      ⟨.ok ({ scope := readVal data (offset + 4) 4, selector := readVal data (offset + 8) 4,
              element := readVal data offset 4 }, offset + 12), offset + 12⟩ := by
  simp [readPropAddr]

theorem run_readStart (verified : aaudioMsgVerify ⟨data, size⟩ type fatalStatus = .ok ()) :
    (readStart size type fatalStatus).run data offset = ⟨.ok ((), 21), 21⟩ := by
  have long : ¬size < 21 := Nat.not_lt.mpr (aaudioMsgVerify_size verified)
  simp [readStart, verified, aaudioMsgHeaderSize, aaudioMsgBaseSize, long]

theorem run_readStart_error {e : Errno}
    (refused : aaudioMsgVerify ⟨data, size⟩ type fatalStatus = .error e) :
    ((readStart size type fatalStatus).run data offset).result = .error (.errno e) := by
  simp [readStart, refused]

/-- Behind the start of a function only what follows it counts. -/
theorem run_started (verified : aaudioMsgVerify ⟨data, size⟩ type fatalStatus = .ok ())
    (next : MsgReader α) :
    (readStart size type fatalStatus >>= fun _ => next).run data offset =
      ⟨(next.run data 21).result, max 21 (next.run data 21).reach⟩ := by
  rw [ByteReader.run_bind, run_readStart verified, ByteReader.continued_ok]

theorem run_started_error {e : Errno}
    (refused : aaudioMsgVerify ⟨data, size⟩ type fatalStatus = .error e) (next : MsgReader α) :
    ((readStart size type fatalStatus >>= fun _ => next).run data offset).result =
      .error (.errno e) := by
  rw [ByteReader.run_bind, ByteReader.continued_of_error _ (run_readStart_error refused)]

end Run

end MsgReader

/-- What a reader returns for a message. -/
def readMsg {α : Type} (reader : Nat → MsgReader α) (msg : AaudioMsg Byte) : Except ReadError α :=
  ((reader msg.size).run msg.data 0).result.map Prod.fst

section Same

variable (msg : AaudioMsg Byte)

/-- The readers of property answers and stream lists return what the plain functions do. -/
theorem readMsg_getPropertyResponse :
    readMsg MsgReader.aaudioMsgReadGetPropertyResponse msg =
      (aaudioMsgReadGetPropertyResponse msg).mapError .errno := by
  rw [readMsg, MsgReader.aaudioMsgReadGetPropertyResponse, aaudioMsgReadGetPropertyResponse]
  cases verified : aaudioMsgVerify msg aaudioMsgGetPropertyResponse true with
  | error e =>
    rw [MsgReader.run_started_error verified]
    rfl
  | ok =>
    rw [MsgReader.run_started verified]
    simp
    rfl

theorem readMsg_idList (type : Nat) :
    readMsg (MsgReader.readIdList type) msg = (readStreamListResponse type msg).mapError .errno := by
  rw [readMsg, MsgReader.readIdList, readStreamListResponse]
  cases verified : aaudioMsgVerify msg type false with
  | error e =>
    rw [MsgReader.run_started_error verified]
    rfl
  | ok =>
    rw [MsgReader.run_started verified]
    simp
    rfl

end Same

end AppleBce
