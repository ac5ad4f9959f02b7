import AppleBce.Vhci.Message

namespace AppleBce

abbrev Byte := BitVec 8

/-- `struct aaudio_msg`: the memory behind `data`, byte by byte, and `size`. -/
structure AaudioMsg (β : Type) where
  data : Nat → β
  size : Nat

def aaudioBceQueueElementSize : Nat := 0x1000

def aaudioBceQueueElementCount : Nat := 20

def aaudioBceQueueTagCount : Nat := 100

/-- `sizeof(struct aaudio_msg_header)`: the tag, the type and the device id. -/
def aaudioMsgHeaderSize : Nat := 13

/-- `sizeof(struct aaudio_msg_base)`: the message and its status. -/
def aaudioMsgBaseSize : Nat := 8

/-- What `aaudio_handle_reply` does to the reply buffer of the entry it finds. -/
def AaudioMsg.copyReply {β : Type} (entry reply : AaudioMsg β) : AaudioMsg β :=
  let size := if reply.size < entry.size then reply.size else entry.size
  { data := fun i => if i < size then reply.data i else entry.data i, size }

@[simp] theorem AaudioMsg.copyReply_size {β : Type} (entry reply : AaudioMsg β) :
    (entry.copyReply reply).size = min reply.size entry.size := by
  simp only [copyReply]
  split <;> omega

theorem AaudioMsg.copyReply_data {β : Type} (entry reply : AaudioMsg β) (i : Nat) :
    (entry.copyReply reply).data i =
      if i < min reply.size entry.size then reply.data i else entry.data i := by
  rw [← copyReply_size]
  rfl

/-- A little-endian value of the given width in the memory of a message. -/
def readVal (data : Nat → Byte) (offset : Nat) : Nat → Nat
  | 0 => 0
  | width + 1 => (data offset).toNat + 256 * readVal data (offset + 1) width

theorem readVal_congr {data other : Nat → Byte} {offset width : Nat}
    (same : ∀ i, offset ≤ i → i < offset + width → data i = other i) :
    readVal data offset width = readVal other offset width := by
  induction width generalizing offset with
  | zero => rfl
  | succ width ih =>
    have first := same offset (by omega) (by omega)
    have rest : readVal data (offset + 1) width = readVal other (offset + 1) width :=
      ih fun i low high => same i (by omega) (by omega)
    rw [readVal, readVal, first, rest]

def aaudioMsgGetPropertyResponse : Nat := 8

def aaudioMsgGetInputStreamListResponse : Nat := 25

def aaudioMsgGetOutputStreamListResponse : Nat := 27

def aaudioStatusUnsupported : Nat := 4

/-- `aaudio_msg_verify`. -/
def aaudioMsgVerify (msg : AaudioMsg Byte) (type : Nat) (fatalStatus : Bool) : Except Errno Unit :=
  if msg.size < aaudioMsgHeaderSize + aaudioMsgBaseSize then .error .inval
  else if readVal msg.data aaudioMsgHeaderSize 4 ≠ type then .error .inval
  else
    let status := readVal msg.data (aaudioMsgHeaderSize + 4) 4
    if status = 0 then .ok ()
    else if fatalStatus then
      .error (if status = aaudioStatusUnsupported then .opnotsupp else .remoteio)
    else .ok ()

/-- The result of `aaudio_msg_verify` is decided by the bytes up to the end of the base. -/
theorem aaudioMsgVerify_congr {msg other : AaudioMsg Byte}
    (small : msg.size < 21 ↔ other.size < 21)
    (same : 21 ≤ other.size → ∀ i < 21, msg.data i = other.data i) (type : Nat) (fatalStatus : Bool) :
    aaudioMsgVerify msg type fatalStatus = aaudioMsgVerify other type fatalStatus := by
  by_cases short : other.size < aaudioMsgHeaderSize + aaudioMsgBaseSize
  · have also : msg.size < aaudioMsgHeaderSize + aaudioMsgBaseSize := small.mpr short
    rw [aaudioMsgVerify, aaudioMsgVerify, if_pos short, if_pos also]
  · have also : ¬msg.size < aaudioMsgHeaderSize + aaudioMsgBaseSize := mt small.mp short
    have bytes := same (Nat.le_of_not_lt short)
    have kind : readVal msg.data aaudioMsgHeaderSize 4 = readVal other.data aaudioMsgHeaderSize 4 :=
      readVal_congr fun i _ high => bytes i (by simp only [aaudioMsgHeaderSize] at high; omega)
    have status : readVal msg.data (aaudioMsgHeaderSize + 4) 4 =
        readVal other.data (aaudioMsgHeaderSize + 4) 4 :=
      readVal_congr fun i _ high => bytes i (by simp only [aaudioMsgHeaderSize] at high; omega)
    rw [aaudioMsgVerify, aaudioMsgVerify, if_neg short, if_neg also, kind, status]

theorem aaudioMsgVerify_size {msg : AaudioMsg Byte} {type : Nat} {fatalStatus : Bool}
    (verified : aaudioMsgVerify msg type fatalStatus = .ok ()) : 21 ≤ msg.size := by
  by_contra small
  have short : msg.size < aaudioMsgHeaderSize + aaudioMsgBaseSize := Nat.lt_of_not_le small
  rw [aaudioMsgVerify, if_pos short] at verified
  cases verified

/-- What `aaudio_msg_read_get_property_response` stores, with `data` as the offset in the message. -/
structure PropertyResponse where
  obj : Nat
  element : Nat
  scope : Nat
  selector : Nat
  dataSize : Nat
  data : Nat
  deriving DecidableEq, Repr

def aaudioMsgReadGetPropertyResponse (msg : AaudioMsg Byte) : Except Errno PropertyResponse :=
  (aaudioMsgVerify msg aaudioMsgGetPropertyResponse true).map fun _ =>
    { obj := readVal msg.data 21 8
      element := readVal msg.data 29 4
      scope := readVal msg.data 33 4
      selector := readVal msg.data 37 4
      dataSize := readVal msg.data 41 8
      data := 49 }

/-- What the readers of the stream lists store. -/
structure StreamListResponse where
  strCnt : Nat
  strL : Nat
  deriving DecidableEq, Repr

def readStreamListResponse (type : Nat) (msg : AaudioMsg Byte) : Except Errno StreamListResponse :=
  (aaudioMsgVerify msg type false).map fun _ => { strCnt := readVal msg.data 21 8, strL := 29 }

def aaudioMsgReadGetInputStreamListResponse (msg : AaudioMsg Byte) : Except Errno StreamListResponse :=
  readStreamListResponse aaudioMsgGetInputStreamListResponse msg

def aaudioMsgReadGetOutputStreamListResponse (msg : AaudioMsg Byte) : Except Errno StreamListResponse :=
  readStreamListResponse aaudioMsgGetOutputStreamListResponse msg

end AppleBce
