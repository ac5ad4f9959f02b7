import AppleBce.Audio.ControlList

namespace AppleBce

open Basis

/-- The functions `aaudio_msg_read_*`. -/
inductive AaudioMsgRead
  | base
  | startIoResponse
  | stopIoResponse
  | updateTimestamp
  | getPropertyResponse
  | setPropertyResponse
  | propertyListenerResponse
  | propertyChanged
  | setInputStreamAddressRangesResponse
  | getInputStreamListResponse
  | getOutputStreamListResponse
  | getControlListResponse
  | setRemoteAccessResponse
  | getDeviceListResponse
  deriving DecidableEq, Repr

namespace AaudioMsgRead

open MsgReader

/-- A part of a message: where it starts and how many bytes it has. -/
abbrev Range := Nat × Nat

/-- A function that reports no range. -/
def plain {α : Type} (read : MsgReader α) : MsgReader (List Range) := do
  let _ ← read
  pure []

/-- A function that reports a list of ids. -/
def listed (read : MsgReader StreamListResponse) : MsgReader (List Range) := do
  let list ← read
  pure [(list.strL, list.strCnt * 8)]

/-- Each function, with the ranges that it reports together with their length or count. -/
def ranges (size : Nat) : AaudioMsgRead → MsgReader (List Range)
  | base => plain (aaudioMsgReadBase size)
  | startIoResponse => plain (aaudioMsgReadStartIoResponse size)
  | stopIoResponse => plain (aaudioMsgReadStopIoResponse size)
  | updateTimestamp => plain (aaudioMsgReadUpdateTimestamp size)
  | getPropertyResponse => do
      let response ← MsgReader.aaudioMsgReadGetPropertyResponse size
      pure [(response.data, response.dataSize)]
  | setPropertyResponse => plain (aaudioMsgReadSetPropertyResponse size)
  | propertyListenerResponse => plain (aaudioMsgReadPropertyListenerResponse size)
  | propertyChanged => plain (aaudioMsgReadPropertyChanged size)
  | setInputStreamAddressRangesResponse =>
      plain (aaudioMsgReadSetInputStreamAddressRangesResponse size)
  | getInputStreamListResponse => listed (MsgReader.aaudioMsgReadGetInputStreamListResponse size)
  | getOutputStreamListResponse => listed (MsgReader.aaudioMsgReadGetOutputStreamListResponse size)
  | getControlListResponse => do
      let list ← aaudioMsgReadGetControlListResponse size
      pure [(list.ctrlL, list.ctrlCnt * 8), (list.elemL, list.ctrlCnt * 8),
        (list.scopeL, list.ctrlCnt * 8)]
  | setRemoteAccessResponse => plain (aaudioMsgReadSetRemoteAccessResponse size)
  | getDeviceListResponse => listed (aaudioMsgReadGetDeviceListResponse size)

/-- If the function succeeds on a message, then it has used no byte behind the message, and what it
reports is a part of the message. -/
def StaysInside (f : AaudioMsgRead) (msg : AaudioMsg Byte) : Prop :=
  ∀ reported past, ((f.ranges msg.size).run msg.data 0).result = .ok (reported, past) →
    ((f.ranges msg.size).run msg.data 0).reach ≤ msg.size ∧
    ∀ range ∈ reported, range.1 + range.2 ≤ msg.size

/-- The functions that do not compare the size with what they read get a message that is long
enough, where they do not refuse it for its start. -/
def LongEnough (f : AaudioMsgRead) (msg : AaudioMsg Byte) : Prop :=
  match f with
  | updateTimestamp =>
      aaudioMsgVerify msg aaudioMsgUpdateTimestamp false = .ok () → 37 ≤ msg.size
  | getPropertyResponse =>
      aaudioMsgVerify msg aaudioMsgGetPropertyResponse true = .ok () →
        49 + readVal msg.data 41 8 ≤ msg.size
  | setPropertyResponse =>
      aaudioMsgVerify msg aaudioMsgSetPropertyResponse true = .ok () → 29 ≤ msg.size
  | propertyListenerResponse =>
      aaudioMsgVerify msg aaudioMsgPropertyListenerResponse false = .ok () → 41 ≤ msg.size
  | propertyChanged =>
      aaudioMsgVerify msg aaudioMsgPropertyChanged false = .ok () → 41 ≤ msg.size
  | getInputStreamListResponse =>
      aaudioMsgVerify msg aaudioMsgGetInputStreamListResponse false = .ok () →
        29 + readVal msg.data 21 8 * 8 ≤ msg.size
  | getOutputStreamListResponse =>
      aaudioMsgVerify msg aaudioMsgGetOutputStreamListResponse false = .ok () →
        29 + readVal msg.data 21 8 * 8 ≤ msg.size
  | getDeviceListResponse =>
      aaudioMsgVerify msg aaudioMsgGetDeviceListResponse false = .ok () →
        29 + readVal msg.data 21 8 * 8 ≤ msg.size
  | _ => True

/-- What `StaysInside` asks of one reading. -/
def Inside (size : Nat) (reading : Reading ReadError (List Range × Nat)) : Prop :=
  ∀ reported past, reading.result = .ok (reported, past) →
    reading.reach ≤ size ∧ ∀ range ∈ reported, range.1 + range.2 ≤ size

@[simp] theorem inside_ok {size past reach : Nat} {reported : List Range} :
    Inside size ⟨.ok (reported, past), reach⟩ ↔
      reach ≤ size ∧ ∀ range ∈ reported, range.1 + range.2 ≤ size := by
  constructor
  · intro inside
    exact inside _ _ rfl
  · intro inside other past same
    cases same
    exact inside

@[simp] theorem inside_error {size reach : Nat} {e : ReadError} : Inside size ⟨.error e, reach⟩ := by
  intro reported past same
  cases same

theorem inside_started {msg : AaudioMsg Byte} {type : Nat} {fatalStatus : Bool}
    {next : MsgReader (List Range)} :
    Inside msg.size ((readStart msg.size type fatalStatus >>= fun _ => next).run msg.data 0) ↔
      (aaudioMsgVerify msg type fatalStatus = .ok () → Inside msg.size (next.run msg.data 21)) := by
  cases verified : aaudioMsgVerify msg type fatalStatus with
  | error e =>
    refine ⟨fun _ => nofun, fun _ reported past succeeded => ?_⟩
    rw [run_started_error verified] at succeeded
    cases succeeded
  | ok =>
    have long := aaudioMsgVerify_size verified
    have both (reach : Nat) : max 21 reach ≤ msg.size ↔ reach ≤ msg.size := by omega
    rw [run_started verified]
    simp only [Inside, both, forall_const]

theorem plain_started {α : Type} (first : MsgReader Unit) (next : MsgReader α) :
    plain (first >>= fun _ => next) = first >>= fun _ => plain next := by
  rw [plain, bind_assoc]
  rfl

theorem inside_listed {msg : AaudioMsg Byte} {type : Nat} :
    Inside msg.size ((listed (readIdList type msg.size)).run msg.data 0) ↔
      (aaudioMsgVerify msg type false = .ok () → 29 + readVal msg.data 21 8 * 8 ≤ msg.size) := by
  rw [listed, readIdList, bind_assoc, inside_started]
  simp only [bind_assoc, pure_bind, ByteReader.run_bind, ByteReader.run_pure, run_readVar,
    ByteReader.run_position, ByteReader.continued_ok, inside_ok, List.forall_mem_singleton]
  refine forall_congr' fun verified => ?_
  omega

/-- A function that reads nothing behind the base. -/
theorem inside_acknowledged {msg : AaudioMsg Byte} {type : Nat} :
    Inside msg.size ((plain (readStart msg.size type false)).run msg.data 0) := by
  rw [plain, inside_started]
  intro verified
  simp

theorem inside_base {msg : AaudioMsg Byte} :
    Inside msg.size ((plain (aaudioMsgReadBase msg.size)).run msg.data 0) := by
  rw [plain, aaudioMsgReadBase]
  split
  · simp
  · next long =>
    simp only [aaudioMsgHeaderSize, aaudioMsgBaseSize] at long
    simp only [ByteReader.peek, ByteReader.run_bind, ByteReader.continued_ok, ByteReader.run_pure,
      inside_ok]
    refine ⟨by omega, by simp⟩

theorem inside_controlList {msg : AaudioMsg Byte} (fits : msg.size < 2 ^ 64) :
    Inside msg.size ((ranges msg.size getControlListResponse).run msg.data 0) := by
  rw [ranges, ByteReader.run_bind]
  by_cases accepted : ControlListStart msg ∧ ControlListBody msg
  · obtain ⟨inside, second, third⟩ := (controlListBody_iff rfl).mp accepted.2
    rw [controlList_accepted (controlList_verified.mpr accepted.1) fits accepted.2,
      ByteReader.continued_ok]
    simp only [ByteReader.run_pure, inside_ok, List.forall_mem_cons]
    exact ⟨by omega, by omega, by omega, by omega, nofun⟩
  · obtain ⟨e, reach, inside, ended⟩ := controlList_failed fits accepted
    rw [ended, ByteReader.continued_error]
    exact inside_error

/-- On a message of any size and contents a function stays inside the message if and only if the
message is long enough for what that function does not check. -/
theorem staysInside_iff (f : AaudioMsgRead) (msg : AaudioMsg Byte) (fits : msg.size < 2 ^ 64) :
    f.StaysInside msg ↔ f.LongEnough msg := by
  have unfolded : f.StaysInside msg ↔ Inside msg.size ((f.ranges msg.size).run msg.data 0) := Iff.rfl
  rw [unfolded]
  cases f with
  | base => exact iff_of_true inside_base trivial
  | startIoResponse => exact iff_of_true inside_acknowledged trivial
  | stopIoResponse => exact iff_of_true inside_acknowledged trivial
  | setInputStreamAddressRangesResponse => exact iff_of_true inside_acknowledged trivial
  | setRemoteAccessResponse => exact iff_of_true inside_acknowledged trivial
  | getInputStreamListResponse => exact inside_listed
  | getOutputStreamListResponse => exact inside_listed
  | getDeviceListResponse => exact inside_listed
  | updateTimestamp =>
    rw [ranges, aaudioMsgReadUpdateTimestamp, plain_started, inside_started]
    simp [plain, LongEnough]
  | setPropertyResponse =>
    rw [ranges, aaudioMsgReadSetPropertyResponse, plain_started, inside_started]
    simp [plain, LongEnough]
  | propertyListenerResponse =>
    rw [ranges, aaudioMsgReadPropertyListenerResponse, plain_started, inside_started]
    simp [plain, LongEnough]
  | propertyChanged =>
    rw [ranges, aaudioMsgReadPropertyChanged, plain_started, inside_started]
    simp [plain, LongEnough]
  | getPropertyResponse =>
    rw [ranges, MsgReader.aaudioMsgReadGetPropertyResponse, bind_assoc, inside_started]
    simp only [bind_assoc, pure_bind, ByteReader.run_bind, ByteReader.run_pure, run_readVar,
      run_readPropAddr, ByteReader.run_position, ByteReader.continued_ok, inside_ok, Nat.reduceAdd,
      List.forall_mem_singleton]
    refine forall_congr' fun verified => ?_
    omega
  | getControlListResponse => exact iff_of_true (inside_controlList fits) trivial

/-- A function that stays inside a message returns the same for all messages that start with it. -/
theorem StaysInside.indifferent {f : AaudioMsgRead} {msg : AaudioMsg Byte} (inside : f.StaysInside msg)
    {reported : List Range} {past : Nat}
    (succeeded : ((f.ranges msg.size).run msg.data 0).result = .ok (reported, past))
    {other : Nat → Byte} (same : ∀ i < msg.size, other i = msg.data i) :
    (f.ranges msg.size).run other 0 = (f.ranges msg.size).run msg.data 0 := by
  have short := (inside reported past succeeded).1
  exact (f.ranges msg.size).footprint msg.data other 0 fun i below => same i (by omega)

/-- A timestamp update that ends behind the timestamp, with no update seed. -/
def seedlessTimestamp : AaudioMsg Byte where
  data i := if i = 13 then 4#8 else 0#8
  size := 29

theorem staysInside_iff_seedless :
    updateTimestamp.StaysInside seedlessTimestamp ↔ updateTimestamp.LongEnough seedlessTimestamp :=
  staysInside_iff updateTimestamp seedlessTimestamp (by decide)

/-- The reader returns 0 for it with a seed from behind its end. -/
theorem seedless_read_outside :
    ((ranges 29 updateTimestamp).run seedlessTimestamp.data 0).result = .ok ([], 37) ∧
    ((ranges 29 updateTimestamp).run seedlessTimestamp.data 0).reach = 37 ∧
    ¬updateTimestamp.StaysInside seedlessTimestamp := by
  refine ⟨rfl, rfl, fun inside => ?_⟩
  have short := (inside [] 37 rfl).1
  exact absurd short (by decide)

end AaudioMsgRead

end AppleBce
