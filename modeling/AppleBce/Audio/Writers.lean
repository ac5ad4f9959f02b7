import AppleBce.Audio.Readers
import AppleBce.Basis.ByteWriter

namespace AppleBce

open Basis

/-- The bytes of a little-endian value of the given width. -/
def leBytes : Nat → Nat → List Byte
  | 0, _ => []
  | width + 1, value => BitVec.ofNat 8 value :: leBytes width (value / 256)

@[simp] theorem leBytes_length (width value : Nat) : (leBytes width value).length = width := by
  induction width generalizing value with
  | zero => rfl
  | succ width ih => rw [leBytes, List.length_cons, ih]

/-- A value is read back from a memory that holds its bytes. -/
theorem readVal_of_holds {data : Nat → Byte} {start width value : Nat} (small : value < 256 ^ width)
    (held : Holds data start (leBytes width value)) : readVal data start width = value := by
  induction width generalizing start value with
  | zero =>
    rw [Nat.pow_zero, Nat.lt_one_iff] at small
    rw [readVal, small]
  | succ width ih =>
    have split : Holds data start ([BitVec.ofNat 8 value] ++ leBytes width (value / 256)) := held
    obtain ⟨first, rest⟩ := holds_append.mp split
    have byte : data start = BitVec.ofNat 8 value := first 0 Nat.one_pos
    have upper : value / 256 < 256 ^ width :=
      Nat.div_lt_of_lt_mul (by rw [Nat.mul_comm, ← Nat.pow_succ]; exact small)
    have later : readVal data (start + 1) width = value / 256 := ih upper rest
    rw [readVal, byte, later, BitVec.toNat_ofNat]
    exact Nat.mod_add_div value 256

abbrev MsgWriter := ByteWriter Byte

def aaudioMsgTypeCommand : Nat := 1

def aaudioMsgSetProperty : Nat := 9

def aaudioMsgPropertyListener : Nat := 11

namespace MsgWriter

/-- `WRITE_START_COMMAND`: the type and the device id of the header. -/
def writeStartCommand (devid : Nat) (memory : Nat → Byte) : MsgWriter where
  data := store (store memory 4 (leBytes 1 aaudioMsgTypeCommand)) 5 (leBytes 8 devid)
  offset := aaudioMsgHeaderSize

/-- `WRITE_VAL`, with the width of the type that is stored and of the value that the offset is moved by. -/
def writeVal (type value width : Nat) (w : MsgWriter) : MsgWriter :=
  w.put (leBytes type value) width

/-- `WRITE_BASE`. -/
def writeBase (code : Nat) (w : MsgWriter) : MsgWriter :=
  writeVal 4 0 4 (writeVal 4 code 4 w)

/-- `WRITE_BIN`. -/
def writeBin (bytes : List Byte) (w : MsgWriter) : MsgWriter :=
  w.put bytes bytes.length

/-- `WRITE_END`. -/
def writeEnd (w : MsgWriter) : AaudioMsg Byte where
  data := w.data
  size := w.offset

/-- The object and the property address, which several messages start with. -/
def writeProp (obj : Nat) (prop : AaudioPropAddr) (w : MsgWriter) : MsgWriter :=
  writeVal 4 prop.selector 4 (writeVal 4 prop.scope 4 (writeVal 4 prop.element 4 (writeVal 8 obj 8 w)))

end MsgWriter

section Write

open MsgWriter

variable (memory : Nat → Byte) (dev obj : Nat) (prop : AaudioPropAddr) (data qualifier : List Byte)

def aaudioMsgWriteSetProperty : AaudioMsg Byte :=
  writeStartCommand dev memory
    |> writeBase aaudioMsgSetProperty
    |> writeProp obj prop
    |> writeVal 8 data.length 8
    |> writeBin data
    |> writeVal 8 qualifier.length 8
    |> writeBin qualifier
    |> writeEnd

def aaudioMsgWritePropertyListener : AaudioMsg Byte :=
  writeStartCommand dev memory
    |> writeBase aaudioMsgPropertyListener
    |> writeProp obj prop
    |> writeEnd

end Write

section Layout

open MsgWriter

variable {memory : Nat → Byte} {dev code obj : Nat} {prop : AaudioPropAddr} {w : MsgWriter}
  {bytes : List Byte}

theorem wrote_start : (writeStartCommand dev memory).Wrote memory 4
    (leBytes 1 aaudioMsgTypeCommand ++ leBytes 8 dev) := by
  refine ⟨holds_append.mpr ⟨?_, ?_⟩, ?_, ?_⟩
  · exact holds_store.store_elsewhere (Or.inl (by simp))
  · exact holds_store
  · simp [writeStartCommand, aaudioMsgHeaderSize]
  · intro i behind
    have far : 13 ≤ i := behind
    have kept : (writeStartCommand dev memory).data i = store memory 4 (leBytes 1 aaudioMsgTypeCommand) i :=
      store_behind (by simp; omega)
    rw [kept, store_behind (by simp; omega)]

theorem wrote_val {width value : Nat} (wrote : w.Wrote memory 4 bytes) :
    (writeVal width value width w).Wrote memory 4 (bytes ++ leBytes width value) :=
  wrote.put (leBytes_length width value).symm

theorem wrote_bin {more : List Byte} (wrote : w.Wrote memory 4 bytes) :
    (writeBin more w).Wrote memory 4 (bytes ++ more) :=
  wrote.put rfl

/-- What every message about a property starts with, behind the tag. -/
def propertyStart (dev code obj : Nat) (prop : AaudioPropAddr) : List Byte :=
  leBytes 1 aaudioMsgTypeCommand ++ leBytes 8 dev ++ leBytes 4 code ++ leBytes 4 0 ++ leBytes 8 obj ++
    leBytes 4 prop.element ++ leBytes 4 prop.scope ++ leBytes 4 prop.selector

theorem propertyStart_length : (propertyStart dev code obj prop).length = 37 := by
  simp [propertyStart]

theorem wrote_propertyStart :
    (writeStartCommand dev memory |> writeBase code |> writeProp obj prop).Wrote memory 4
      (propertyStart dev code obj prop) :=
  wrote_val (wrote_val (wrote_val (wrote_val (wrote_val (wrote_val wrote_start)))))

/-- The fields of a message about a property. -/
structure PropertyFields (data : Nat → Byte) (dev code obj : Nat) (prop : AaudioPropAddr) : Prop where
  device : Holds data 5 (leBytes 8 dev)
  code : Holds data 13 (leBytes 4 code)
  status : Holds data 17 (leBytes 4 0)
  obj : Holds data 21 (leBytes 8 obj)
  element : Holds data 29 (leBytes 4 prop.element)
  scope : Holds data 33 (leBytes 4 prop.scope)
  selector : Holds data 37 (leBytes 4 prop.selector)

theorem propertyFields_of_holds {data : Nat → Byte}
    (held : Holds data 4 (propertyStart dev code obj prop)) : PropertyFields data dev code obj prop := by
  simp only [propertyStart, holds_append, List.length_append, leBytes_length] at held
  obtain ⟨⟨⟨⟨⟨⟨⟨_, device⟩, code⟩, status⟩, obj⟩, element⟩, scope⟩, selector⟩ := held
  exact ⟨device, code, status, obj, element, scope, selector⟩

/-- A message with another code. -/
def withCode (msg : AaudioMsg Byte) (code : Nat) : AaudioMsg Byte where
  data := store msg.data aaudioMsgHeaderSize (leBytes 4 code)
  size := msg.size

theorem PropertyFields.recoded {data : Nat → Byte} (fields : PropertyFields data dev code obj prop)
    (other : Nat) :
    PropertyFields (store data aaudioMsgHeaderSize (leBytes 4 other)) dev other obj prop where
  device := fields.device.store_elsewhere (Or.inl (by simp [aaudioMsgHeaderSize]))
  code := holds_store
  status := fields.status.store_elsewhere (Or.inr (by simp [aaudioMsgHeaderSize]))
  obj := fields.obj.store_elsewhere (Or.inr (by simp [aaudioMsgHeaderSize]))
  element := fields.element.store_elsewhere (Or.inr (by simp [aaudioMsgHeaderSize]))
  scope := fields.scope.store_elsewhere (Or.inr (by simp [aaudioMsgHeaderSize]))
  selector := fields.selector.store_elsewhere (Or.inr (by simp [aaudioMsgHeaderSize]))

theorem PropertyFields.verified {data : Nat → Byte} {size : Nat} {fatalStatus : Bool}
    (fields : PropertyFields data dev code obj prop) (long : 21 ≤ size) (small : code < 2 ^ 32) :
    aaudioMsgVerify ⟨data, size⟩ code fatalStatus = .ok () := by
  have kind : readVal data aaudioMsgHeaderSize 4 = code := readVal_of_holds small fields.code
  have status : readVal data (aaudioMsgHeaderSize + 4) 4 = 0 :=
    readVal_of_holds (by decide) fields.status
  have enough : ¬size < aaudioMsgHeaderSize + aaudioMsgBaseSize := Nat.not_lt.mpr long
  rw [aaudioMsgVerify, if_neg enough, if_neg (not_not.mpr kind)]
  simp only [status, if_true]

/-- The values that the types of the device id, the object id and the property address have. -/
structure Typed (dev obj : Nat) (prop : AaudioPropAddr) : Prop where
  dev : dev < 2 ^ 64
  obj : obj < 2 ^ 64
  element : prop.element < 2 ^ 32
  scope : prop.scope < 2 ^ 32
  selector : prop.selector < 2 ^ 32

theorem PropertyFields.readPropAddr {data : Nat → Byte} (fields : PropertyFields data dev code obj prop)
    (typed : Typed dev obj prop) :
    MsgReader.readPropAddr.run data 29 = ⟨.ok (prop, 41), 41⟩ := by
  rw [MsgReader.run_readPropAddr, readVal_of_holds typed.scope fields.scope,
    readVal_of_holds typed.selector fields.selector, readVal_of_holds typed.element fields.element]

theorem PropertyFields.read_response {data : Nat → Byte} {size length : Nat}
    (fields : PropertyFields data dev aaudioMsgGetPropertyResponse obj prop)
    (typed : Typed dev obj prop) (long : 21 ≤ size) (small : length < 2 ^ 64)
    (announced : Holds data 41 (leBytes 8 length)) :
    readMsg MsgReader.aaudioMsgReadGetPropertyResponse ⟨data, size⟩ =
      .ok { obj, element := prop.element, scope := prop.scope, selector := prop.selector,
            dataSize := length, data := 49 } := by
  have object : readVal data 21 8 = obj := readVal_of_holds typed.obj fields.obj
  have count : readVal data 41 8 = length := readVal_of_holds small announced
  simp only [readMsg, MsgReader.aaudioMsgReadGetPropertyResponse, ByteReader.run_bind,
    MsgReader.run_readStart (fields.verified long (by decide)), ByteReader.continued_ok,
    MsgReader.run_readVar, fields.readPropAddr typed, ByteReader.run_position, ByteReader.run_pure,
    object, count]
  rfl

theorem PropertyFields.read_changed {data : Nat → Byte} {size : Nat}
    (fields : PropertyFields data dev aaudioMsgPropertyChanged obj prop)
    (typed : Typed dev obj prop) (long : 21 ≤ size) :
    readMsg MsgReader.aaudioMsgReadPropertyChanged ⟨data, size⟩ = .ok (dev, obj, prop) := by
  have device : readVal data 5 8 = dev := readVal_of_holds typed.dev fields.device
  have object : readVal data 21 8 = obj := readVal_of_holds typed.obj fields.obj
  simp only [readMsg, MsgReader.aaudioMsgReadPropertyChanged, ByteReader.run_bind,
    MsgReader.run_readStart (fields.verified long (by decide)), ByteReader.continued_ok,
    MsgReader.run_readDevidVar, MsgReader.run_readVar, fields.readPropAddr typed,
    ByteReader.run_pure, device, object]
  rfl

/-- Where the parts of a message that sets a property are, and where it ends. -/
theorem setProperty_layout (memory : Nat → Byte) (dev obj : Nat) (prop : AaudioPropAddr)
    (data qualifier : List Byte) :
    let sent := aaudioMsgWriteSetProperty memory dev obj prop data qualifier
    PropertyFields sent.data dev aaudioMsgSetProperty obj prop ∧
    Holds sent.data 41 (leBytes 8 data.length) ∧ Holds sent.data 49 data ∧
    Holds sent.data (57 + data.length) qualifier ∧ sent.size = 57 + data.length + qualifier.length := by
  intro sent
  have wrote : ByteWriter.Wrote ⟨sent.data, sent.size⟩ memory 4
      (propertyStart dev aaudioMsgSetProperty obj prop ++ leBytes 8 data.length ++ data ++
        leBytes 8 qualifier.length ++ qualifier) :=
    wrote_bin (wrote_val (wrote_bin (wrote_val wrote_propertyStart)))
  obtain ⟨held, fin, _⟩ := wrote
  simp only [holds_append, List.length_append, propertyStart_length, leBytes_length] at held fin
  obtain ⟨⟨⟨⟨start, announced⟩, carried⟩, _⟩, qualified⟩ := held
  have place : 4 + (37 + 8 + data.length + 8) = 57 + data.length := by omega
  rw [place] at qualified
  exact ⟨propertyFields_of_holds start, announced, carried, qualified, by omega⟩

theorem propertyListener_layout (memory : Nat → Byte) (dev obj : Nat) (prop : AaudioPropAddr) :
    let listener := aaudioMsgWritePropertyListener memory dev obj prop
    PropertyFields listener.data dev aaudioMsgPropertyListener obj prop ∧ listener.size = 41 := by
  intro listener
  have wrote : ByteWriter.Wrote ⟨listener.data, listener.size⟩ memory 4
      (propertyStart dev aaudioMsgPropertyListener obj prop) := wrote_propertyStart
  obtain ⟨held, fin, _⟩ := wrote
  rw [propertyStart_length] at fin
  exact ⟨propertyFields_of_holds held, fin⟩

end Layout

/-- The messages that set a property and that listen to one are read back with their fields, when
they get the code of an answer, and end with the last field that was written. -/
theorem property_layout (memory : Nat → Byte) {dev obj : Nat} {prop : AaudioPropAddr}
    (data qualifier : List Byte) (typed : Typed dev obj prop)
    (fits : 57 + data.length + qualifier.length ≤ aaudioBceQueueElementSize) :
    let sent := aaudioMsgWriteSetProperty memory dev obj prop data qualifier
    let answer := withCode sent aaudioMsgGetPropertyResponse
    let listener := aaudioMsgWritePropertyListener memory dev obj prop
    readMsg MsgReader.aaudioMsgReadGetPropertyResponse answer =
      .ok { obj, element := prop.element, scope := prop.scope, selector := prop.selector,
            dataSize := data.length, data := 49 } ∧
    Holds answer.data 49 data ∧
    readMsg MsgReader.aaudioMsgReadPropertyChanged (withCode listener aaudioMsgPropertyChanged) =
      .ok (dev, obj, prop) ∧
    (Holds sent.data (57 + data.length) qualifier ∧ sent.size = 57 + data.length + qualifier.length) ∧
    (Holds listener.data 37 (leBytes 4 prop.selector) ∧ listener.size = 37 + 4) := by
  intro sent answer listener
  obtain ⟨fields, announced, carried, qualified, size⟩ :=
    setProperty_layout memory dev obj prop data qualifier
  obtain ⟨listened, listenerSize⟩ := propertyListener_layout memory dev obj prop
  have bounded : data.length < 2 ^ 64 := by
    simp only [aaudioBceQueueElementSize] at fits
    omega
  have announcedStill : Holds answer.data 41 (leBytes 8 data.length) :=
    announced.store_elsewhere (Or.inr (by simp [aaudioMsgHeaderSize]))
  have carriedStill : Holds answer.data 49 data :=
    carried.store_elsewhere (Or.inr (by simp [aaudioMsgHeaderSize]))
  refine ⟨?_, carriedStill, ?_, ⟨qualified, size⟩, listened.selector, listenerSize⟩
  · have long : 21 ≤ answer.size := by
      have same : answer.size = 57 + data.length + qualifier.length := size
      omega
    exact (fields.recoded aaudioMsgGetPropertyResponse).read_response typed long bounded announcedStill
  · have long : 21 ≤ (withCode listener aaudioMsgPropertyChanged).size := by
      have same : (withCode listener aaudioMsgPropertyChanged).size = 41 := listenerSize
      omega
    exact (listened.recoded aaudioMsgPropertyChanged).read_changed typed long

theorem property_layout_volume :
    let sent := aaudioMsgWriteSetProperty (fun _ => 0xaa#8) 3 7 ⟨0x676c6f62, 0x6c636476, 0⟩
      [0x00#8, 0x00#8, 0xc8#8, 0xc1#8] []
    readMsg MsgReader.aaudioMsgReadGetPropertyResponse (withCode sent aaudioMsgGetPropertyResponse) =
      .ok { obj := 7, element := 0, scope := 0x676c6f62, selector := 0x6c636476, dataSize := 4,
            data := 49 } :=
  (property_layout (fun _ => 0xaa#8) [0x00#8, 0x00#8, 0xc8#8, 0xc1#8] []
    ⟨by decide, by decide, by decide, by decide, by decide⟩ (by decide)).1

end AppleBce
