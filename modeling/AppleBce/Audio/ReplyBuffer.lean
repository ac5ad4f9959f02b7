import AppleBce.Audio.Message

namespace AppleBce

def aaudioDeviceMaxUidLen : Nat := 128

def aaudioDeviceMaxStreams : Nat := 1

/-- The commands that share one reply buffer in `aaudio_init_dev`. -/
inductive InitRead
  | uid
  | inputStreamList
  | outputStreamList
  deriving DecidableEq, Repr

namespace InitRead

/-- The type of the reply, and whether a status in it is an error. -/
def response : InitRead → Nat × Bool
  | .uid => (aaudioMsgGetPropertyResponse, true)
  | .inputStreamList => (aaudioMsgGetInputStreamListResponse, false)
  | .outputStreamList => (aaudioMsgGetOutputStreamListResponse, false)

/-- Where the fixed fields end that the reader of the reply takes without a look at the size. -/
def fixedEnd : InitRead → Nat
  | .uid => 49
  | .inputStreamList | .outputStreamList => 29

/-- How many bytes `aaudio_init_dev` takes behind them: the uid when it is not too long, or the ids
of the supported number of streams. -/
def payload (read : InitRead) (data : Nat → Byte) : Nat :=
  match read with
  | .uid =>
    let uidLen := readVal data 41 8
    if uidLen > aaudioDeviceMaxUidLen then 0 else uidLen
  | .inputStreamList | .outputStreamList => 8 * min (readVal data 21 8) aaudioDeviceMaxStreams

/-- The end of the bytes that are parsed, when the reader succeeds. -/
def parsedEnd (read : InitRead) (data : Nat → Byte) : Nat :=
  read.fixedEnd + read.payload data

/-- The bytes of the uid that are copied, when it is not too long. -/
def uidEnd (response : PropertyResponse) : Nat :=
  response.data + if response.dataSize > aaudioDeviceMaxUidLen then 0 else response.dataSize

/-- The ids of the supported number of streams. -/
def streamsEnd (response : StreamListResponse) : Nat :=
  response.strL + 8 * min response.strCnt aaudioDeviceMaxStreams

/-- The reader of the reply, with the end of the bytes that it and its caller take. -/
def parse (read : InitRead) (msg : AaudioMsg Byte) : Except Errno Nat :=
  match read with
  | .uid => (aaudioMsgReadGetPropertyResponse msg).map uidEnd
  | .inputStreamList => (aaudioMsgReadGetInputStreamListResponse msg).map streamsEnd
  | .outputStreamList => (aaudioMsgReadGetOutputStreamListResponse msg).map streamsEnd

theorem parse_eq (read : InitRead) (msg : AaudioMsg Byte) : read.parse msg =
    (aaudioMsgVerify msg read.response.1 read.response.2).map fun _ => read.parsedEnd msg.data := by
  cases read with
  | uid =>
    simp only [parse, aaudioMsgReadGetPropertyResponse, response]
    cases aaudioMsgVerify msg aaudioMsgGetPropertyResponse true <;> rfl
  | inputStreamList =>
    simp only [parse, aaudioMsgReadGetInputStreamListResponse, readStreamListResponse, response]
    cases aaudioMsgVerify msg aaudioMsgGetInputStreamListResponse false <;> rfl
  | outputStreamList =>
    simp only [parse, aaudioMsgReadGetOutputStreamListResponse, readStreamListResponse, response]
    cases aaudioMsgVerify msg aaudioMsgGetOutputStreamListResponse false <;> rfl

/-- Whether a reply is as long as the fields and the payload it announces. -/
def Fits (read : InitRead) (reply : AaudioMsg Byte) : Prop :=
  read.parsedEnd reply.data ≤ reply.size

instance (read : InitRead) (reply : AaudioMsg Byte) : Decidable (read.Fits reply) :=
  inferInstanceAs (Decidable (_ ≤ _))

/-- A buffer that begins with a reply of some size announces what the reply does. -/
theorem parsedEnd_congr (read : InitRead) {data other : Nat → Byte} {size : Nat}
    (same : ∀ i < size, data i = other i) :
    read.parsedEnd data ≤ size ↔ read.parsedEnd other ≤ size := by
  by_cases fixed : read.fixedEnd ≤ size
  · have payload : read.payload data = read.payload other := by
      cases read with
      | uid =>
        have length : readVal data 41 8 = readVal other 41 8 :=
          readVal_congr fun i _ high => same i (by simp only [fixedEnd] at fixed; omega)
        simp only [InitRead.payload, length]
      | inputStreamList | outputStreamList =>
        have count : readVal data 21 8 = readVal other 21 8 :=
          readVal_congr fun i _ high => same i (by simp only [fixedEnd] at fixed; omega)
        simp only [InitRead.payload, count]
    rw [parsedEnd, parsedEnd, payload]
  · unfold parsedEnd
    omega

end InitRead

/-- One command with the shared buffer: its reader, the response the T2 sent while its entry was in
the table, and whether it was handled before the wait ran out. -/
structure ReplyCommand where
  read : InitRead
  response : Option (AaudioMsg Byte)
  inTime : Bool

/-- The response that reaches `aaudio_handle_reply`. -/
def ReplyCommand.handled (command : ReplyCommand) : Option (AaudioMsg Byte) :=
  command.response.filter fun reply => aaudioMsgHeaderSize ≤ reply.size

/-- The shared buffer, with the number of the command whose reply wrote each byte. -/
structure ReusedBuffer where
  buf : AaudioMsg Byte
  origin : Nat → Option Nat

namespace ReusedBuffer

/-- `aaudio_reply_alloc`, which does not clear the memory. -/
def alloc (memory : Nat → Byte) : ReusedBuffer where
  buf := ⟨memory, aaudioBceQueueElementSize⟩
  origin := fun _ => none

def receive (s : ReusedBuffer) (k : Nat) (reply : AaudioMsg Byte) : ReusedBuffer where
  buf := s.buf.copyReply reply
  origin := (AaudioMsg.copyReply ⟨s.origin, s.buf.size⟩ ⟨fun _ => some k, reply.size⟩).data

/-- The buffer after a command, and the end of the bytes parsed from it when the command succeeds. -/
def command (s : ReusedBuffer) (k : Nat) (c : ReplyCommand) : Except Errno Nat × ReusedBuffer :=
  match c.handled with
  | none => (.error .timedout, s)
  | some reply =>
    let t := s.receive k reply
    (if c.inTime then c.read.parse t.buf else .error .timedout, t)

/-- The buffer before the `k`-th command of a sequence. -/
def before (memory : Nat → Byte) (commands : Nat → ReplyCommand) : Nat → ReusedBuffer
  | 0 => alloc memory
  | k + 1 => ((before memory commands k).command k (commands k)).2

/-- What the `k`-th command returns. -/
def result (memory : Nat → Byte) (commands : Nat → ReplyCommand) (k : Nat) : Except Errno Nat :=
  ((before memory commands k).command k (commands k)).1

/-- The buffer holds the whole reply of the `k`-th command, and no byte up to `parsedEnd` comes from
another one. -/
def Whole (s : ReusedBuffer) (k : Nat) (reply : AaudioMsg Byte) (parsedEnd : Nat) : Prop :=
  s.buf.size = reply.size ∧ (∀ i < reply.size, s.buf.data i = reply.data i) ∧
  ∀ i, aaudioMsgHeaderSize ≤ i → i < parsedEnd → ∀ j, s.origin i = some j → j = k

variable {memory : Nat → Byte} {commands : Nat → ReplyCommand} {j k : Nat}
  {reply earlier : AaudioMsg Byte}

/-- The first reply that was copied. -/
def First (commands : Nat → ReplyCommand) (j : Nat) (reply : AaudioMsg Byte) : Prop :=
  (commands j).handled = some reply ∧ ∀ i < j, (commands i).handled = none

theorem first_exists (some_before : ∃ j < k, ∃ reply, (commands j).handled = some reply) :
    ∃ n < k, ∃ reply, First commands n reply := by
  induction k with
  | zero =>
    obtain ⟨j, below, -⟩ := some_before
    omega
  | succ k ih =>
    by_cases earlier : ∃ j < k, ∃ reply, (commands j).handled = some reply
    · obtain ⟨n, below, reply, first⟩ := ih earlier
      exact ⟨n, by omega, reply, first⟩
    · obtain ⟨j, below, reply, handled⟩ := some_before
      have unhandled : ∀ i < k, (commands i).handled = none := by
        intro i order
        by_contra other
        obtain ⟨reply, handled⟩ := Option.ne_none_iff_exists'.mp other
        exact earlier ⟨i, order, reply, handled⟩
      have last : j = k := by
        by_contra other
        rw [unhandled j (by omega)] at handled
        cases handled
      rw [last] at handled
      exact ⟨k, by omega, reply, handled, unhandled⟩

theorem before_unhandled (none : (commands k).handled = none) :
    before memory commands (k + 1) = before memory commands k := by
  simp only [before, command, none]

theorem before_handled (handled : (commands k).handled = some reply) :
    before memory commands (k + 1) = (before memory commands k).receive k reply := by
  simp only [before, command, handled]

/-- The size of the buffer is that of the smallest reply so far. -/
theorem size_le (handled : (commands j).handled = some reply) (order : j < k) :
    (before memory commands k).buf.size ≤ reply.size := by
  induction k with
  | zero => omega
  | succ k ih =>
    by_cases last : j = k
    · rw [last] at handled
      rw [before_handled handled]
      simp only [receive, AaudioMsg.copyReply_size]
      omega
    · have bound := ih (by omega)
      cases now : (commands k).handled with
      | none =>
        rw [before_unhandled now]
        exact bound
      | some other =>
        rw [before_handled now]
        simp only [receive, AaudioMsg.copyReply_size]
        omega

theorem size_attained (memory : Nat → Byte) (commands : Nat → ReplyCommand) (k : Nat) :
    (before memory commands k).buf.size = aaudioBceQueueElementSize ∨
      ∃ j < k, ∃ reply, (commands j).handled = some reply ∧
        (before memory commands k).buf.size = reply.size := by
  induction k with
  | zero => exact .inl rfl
  | succ k ih =>
    have longer : ∀ size, ((∃ j < k, ∃ reply, (commands j).handled = some reply ∧ size = reply.size) →
        ∃ j < k + 1, ∃ reply, (commands j).handled = some reply ∧ size = reply.size) := by
      rintro size ⟨j, order, reply, handled, same⟩
      exact ⟨j, by omega, reply, handled, same⟩
    cases now : (commands k).handled with
    | none =>
      rw [before_unhandled now]
      exact ih.imp_right (longer _)
    | some reply =>
      rw [before_handled now]
      simp only [receive, AaudioMsg.copyReply_size]
      by_cases shorter : reply.size ≤ (before memory commands k).buf.size
      · exact .inr ⟨k, by omega, reply, now, by omega⟩
      · have same : min reply.size (before memory commands k).buf.size =
            (before memory commands k).buf.size := by omega
        rw [same]
        exact ih.imp_right (longer _)

/-- Every byte that a reply wrote lies inside the first reply. -/
theorem origin_before {i : Nat} (wrote : (before memory commands k).origin i = some j) :
    j < k ∧ ∃ n < k, ∃ reply, First commands n reply ∧ i < reply.size := by
  induction k with
  | zero => cases wrote
  | succ k ih =>
    cases now : (commands k).handled with
    | none =>
      rw [before_unhandled now] at wrote
      obtain ⟨order, n, below, rest⟩ := ih wrote
      exact ⟨by omega, n, by omega, rest⟩
    | some reply =>
      rw [before_handled now] at wrote
      simp only [receive, AaudioMsg.copyReply_data] at wrote
      split at wrote
      next inside =>
        obtain rfl := Option.some.inj wrote
        refine ⟨by omega, ?_⟩
        by_cases some_before : ∃ n < k, ∃ other, (commands n).handled = some other
        · obtain ⟨n, below, other, first⟩ := first_exists some_before
          have bound : (before memory commands k).buf.size ≤ other.size := size_le first.1 below
          exact ⟨n, by omega, other, first, by omega⟩
        · refine ⟨k, by omega, reply, ⟨now, ?_⟩, by omega⟩
          intro m below
          by_contra handled
          obtain ⟨other, handled⟩ := Option.ne_none_iff_exists'.mp handled
          exact some_before ⟨m, below, other, handled⟩
      next =>
        obtain ⟨order, n, below, rest⟩ := ih wrote
        exact ⟨by omega, n, by omega, rest⟩

/-- Before the first reply the buffer is as it was allocated. -/
theorem before_first {n : Nat} (unhandled : ∀ i < n, (commands i).handled = none) :
    before memory commands n = alloc memory := by
  induction n with
  | zero => rfl
  | succ n ih =>
    rw [before_unhandled (unhandled n (by omega))]
    exact ih fun i below => unhandled i (by omega)

/-- The bytes of the first reply belong to some reply from then on. -/
theorem origin_after {n i : Nat} (first : First commands n reply) (order : n < k)
    (fits : reply.size ≤ aaudioBceQueueElementSize) (inside : i < reply.size) :
    ∃ j < k, (before memory commands k).origin i = some j := by
  induction k with
  | zero => omega
  | succ k ih =>
    by_cases last : n = k
    · rw [← last, before_handled first.1, before_first first.2]
      refine ⟨n, by omega, ?_⟩
      simp only [receive, AaudioMsg.copyReply_data]
      exact if_pos (by simp only [alloc]; omega)
    · obtain ⟨j, below, wrote⟩ := ih (by omega)
      cases now : (commands k).handled with
      | none =>
        rw [before_unhandled now]
        exact ⟨j, by omega, wrote⟩
      | some other =>
        rw [before_handled now]
        simp only [receive, AaudioMsg.copyReply_data]
        split
        · exact ⟨k, by omega, rfl⟩
        · exact ⟨j, by omega, wrote⟩

/-- The reply is of the right kind, has no fatal status, and is there in time. -/
def Answers (c : ReplyCommand) (reply : AaudioMsg Byte) : Prop :=
  c.handled = some reply ∧ c.inTime ∧
  aaudioMsgVerify reply c.read.response.1 c.read.response.2 = .ok ()

/-- What the check sees of a reply in a buffer that is not too short for it. -/
theorem receive_verify {s : ReusedBuffer} (large : 21 ≤ s.buf.size) (type : Nat) (fatal : Bool) :
    aaudioMsgVerify (s.receive k reply).buf type fatal = aaudioMsgVerify reply type fatal := by
  refine aaudioMsgVerify_congr ?_ ?_ type fatal
  · simp only [receive, AaudioMsg.copyReply_size]
    omega
  · intro whole i inside
    simp only [receive, AaudioMsg.copyReply_data]
    exact if_pos (by omega)

/-- A command succeeds when it is answered and the buffer is not too short for the check. -/
theorem result_ok_iff {parsedEnd : Nat} : result memory commands k = .ok parsedEnd ↔
    ∃ reply, Answers (commands k) reply ∧ 21 ≤ (before memory commands k).buf.size ∧
      (commands k).read.parsedEnd ((before memory commands k).receive k reply).buf.data = parsedEnd := by
  unfold Answers
  cases handled : (commands k).handled with
  | none => simp [result, command, handled]
  | some reply =>
    simp only [result, command, handled, Option.some.injEq, exists_eq_left', and_assoc]
    cases inTime : (commands k).inTime with
    | false => simp
    | true =>
      rw [if_pos rfl, InitRead.parse_eq]
      by_cases large : 21 ≤ (before memory commands k).buf.size
      · rw [receive_verify large]
        cases aaudioMsgVerify reply (commands k).read.response.1 (commands k).read.response.2 with
        | error status => simp [Except.map]
        | ok verified => simp [Except.map, large]
      · have fails : ∀ value, aaudioMsgVerify ((before memory commands k).receive k reply).buf
            (commands k).read.response.1 (commands k).read.response.2 ≠ .ok value := by
          intro value verified
          have size := aaudioMsgVerify_size verified
          simp only [receive, AaudioMsg.copyReply_size] at size
          omega
        cases checked : aaudioMsgVerify ((before memory commands k).receive k reply).buf
            (commands k).read.response.1 (commands k).read.response.2 with
        | error status => simp [Except.map, large]
        | ok value => exact absurd checked (fails value)

/-- An answer is not longer than the replies before it, and is as long as what it announces or as
the first of them, unless a reply too short for any check has come before. -/
def Shrinks (commands : Nat → ReplyCommand) (k : Nat) : Prop :=
  ∀ reply, Answers (commands k) reply →
    (∃ j < k, ∃ earlier, (commands j).handled = some earlier ∧ earlier.size < 21) ∨
    ((∀ j < k, ∀ earlier, (commands j).handled = some earlier → reply.size ≤ earlier.size) ∧
      ((commands k).read.Fits reply ∨
        ∀ j < k, ∀ earlier, First commands j earlier → earlier.size ≤ reply.size))

theorem handled_response (handled : (commands k).handled = some reply) :
    (commands k).response = some reply :=
  (Option.filter_eq_some_iff.mp handled).1

/-- A command that succeeds leaves its whole reply, under the condition. -/
theorem whole_of_shrinks
    (bound : ∀ j reply, (commands j).handled = some reply → reply.size ≤ aaudioBceQueueElementSize)
    (answers : Answers (commands k) reply) (large : 21 ≤ (before memory commands k).buf.size)
    (shrinks : Shrinks commands k) :
    Whole ((before memory commands k).receive k reply) k reply
      ((commands k).read.parsedEnd ((before memory commands k).receive k reply).buf.data) := by
  obtain ⟨j, below, earlier, handled, short⟩ | ⟨shortest, extent⟩ := shrinks reply answers
  · have size : (before memory commands k).buf.size ≤ earlier.size := size_le handled below
    omega
  have room : reply.size ≤ (before memory commands k).buf.size := by
    obtain full | ⟨j, below, earlier, handled, same⟩ := size_attained memory commands k
    · have fits := bound k reply answers.1
      omega
    · have order := shortest j below earlier handled
      omega
  have whole : min reply.size (before memory commands k).buf.size = reply.size := by omega
  have bytes : ∀ i < reply.size,
      ((before memory commands k).receive k reply).buf.data i = reply.data i := by
    intro i inside
    simp only [receive, AaudioMsg.copyReply_data]
    exact if_pos (by omega)
  refine ⟨?_, bytes, ?_⟩
  · simp only [receive, AaudioMsg.copyReply_size]
    exact whole
  · intro i _ parsed j wrote
    simp only [receive, AaudioMsg.copyReply_data, whole] at wrote
    split at wrote
    next => exact (Option.some.inj wrote).symm
    next outside =>
      -- an older byte is parsed only when the reply announces more than it has
      rcases extent with fits | first
      · have also := (InitRead.parsedEnd_congr _ bytes).mpr fits
        omega
      · obtain ⟨-, n, below, earlier, firstly, inside⟩ := origin_before wrote
        have order := first n below earlier firstly
        omega

/-- A command that left its whole reply met the condition. -/
theorem shrinks_of_whole
    (bound : ∀ j reply, (commands j).handled = some reply → reply.size ≤ aaudioBceQueueElementSize)
    (answers : Answers (commands k) reply)
    (whole : Whole ((before memory commands k).receive k reply) k reply
      ((commands k).read.parsedEnd ((before memory commands k).receive k reply).buf.data)) :
    (∀ j < k, ∀ earlier, (commands j).handled = some earlier → reply.size ≤ earlier.size) ∧
      ((commands k).read.Fits reply ∨
        ∀ j < k, ∀ earlier, First commands j earlier → earlier.size ≤ reply.size) := by
  obtain ⟨size, bytes, parsed⟩ := whole
  simp only [receive, AaudioMsg.copyReply_size] at size
  have checked := aaudioMsgVerify_size answers.2.2
  refine ⟨?_, ?_⟩
  · intro j below earlier handled
    have smallest : (before memory commands k).buf.size ≤ earlier.size := size_le handled below
    omega
  · by_cases fits : (commands k).read.Fits reply
    · exact .inl fits
    refine .inr ?_
    intro j below earlier first
    by_contra longer
    -- the byte behind the reply is one of the first reply's or of a later one
    obtain ⟨n, before_k, wrote⟩ : ∃ n < k, (before memory commands k).origin reply.size = some n :=
      origin_after first below (bound j earlier first.1) (Nat.lt_of_not_le longer)
    have beyond : reply.size < (commands k).read.parsedEnd
        ((before memory commands k).receive k reply).buf.data := by
      by_contra inside
      exact fits ((InitRead.parsedEnd_congr _ bytes).mp (Nat.le_of_not_lt inside))
    have own : ((before memory commands k).receive k reply).origin reply.size = some n := by
      simp only [receive, AaudioMsg.copyReply_data]
      rw [if_neg (by omega), wrote]
    have header : aaudioMsgHeaderSize ≤ reply.size := by
      simp only [aaudioMsgHeaderSize]
      omega
    have same := parsed reply.size header beyond n own
    omega

/-- Over every sequence of commands with one reply buffer, whatever it held before: each command
that succeeds leaves its whole reply in the buffer, with its size, and parses no byte of an earlier
reply, if and only if the answers meet the condition. -/
theorem reused_buffer_whole (memory : Nat → Byte) (commands : Nat → ReplyCommand)
    (fits : ∀ k reply, (commands k).response = some reply → reply.size ≤ aaudioBceQueueElementSize) :
    (∀ k parsedEnd, result memory commands k = .ok parsedEnd → ∃ reply,
      (commands k).handled = some reply ∧ Whole (before memory commands (k + 1)) k reply parsedEnd) ↔
    ∀ k, Shrinks commands k := by
  have bound : ∀ j reply, (commands j).handled = some reply →
      reply.size ≤ aaudioBceQueueElementSize :=
    fun j reply handled => fits j reply (handled_response handled)
  constructor
  · intro wholes k reply answers
    by_cases large : 21 ≤ (before memory commands k).buf.size
    · obtain ⟨other, handled, whole⟩ := wholes k _ (result_ok_iff.mpr ⟨reply, answers, large, rfl⟩)
      obtain rfl := Option.some.inj (handled.symm.trans answers.1)
      rw [before_handled handled] at whole
      exact .inr (shrinks_of_whole bound answers whole)
    · obtain full | ⟨j, below, earlier, handled, same⟩ := size_attained memory commands k
      · simp only [aaudioBceQueueElementSize] at full
        omega
      · exact .inl ⟨j, below, earlier, handled, by omega⟩
  · intro shrinks k parsedEnd succeeds
    obtain ⟨reply, answers, large, rfl⟩ := result_ok_iff.mp succeeds
    refine ⟨reply, answers.1, ?_⟩
    rw [before_handled answers.1]
    exact whole_of_shrinks bound answers large (shrinks k)

/-- A reply of the given type and status 0, with one more value of the given width at an offset. -/
def sampleReply (size type offset value : Nat) : AaudioMsg Byte :=
  ⟨fun i => if i = 13 then BitVec.ofNat 8 type else if i = offset then BitVec.ofNat 8 value else 0, size⟩

/-- A uid and the two stream lists, with replies of the given sizes in time, and nothing after. -/
def sampleCommands (uid input output : AaudioMsg Byte) : Nat → ReplyCommand
  | 0 => ⟨.uid, some uid, true⟩
  | 1 => ⟨.inputStreamList, some input, true⟩
  | 2 => ⟨.outputStreamList, some output, true⟩
  | _ => ⟨.uid, none, false⟩

/-- A uid of 12 bytes and two lists of one stream. -/
def shrinkingCommands : Nat → ReplyCommand :=
  sampleCommands (sampleReply 61 8 41 12) (sampleReply 37 25 21 1) (sampleReply 37 27 21 1)

theorem reused_buffer_whole_shrinking : ∃ reply,
    result (fun _ => 0) shrinkingCommands 2 = .ok 37 ∧ (shrinkingCommands 2).handled = some reply ∧
    Whole (before (fun _ => 0) shrinkingCommands 3) 2 reply 37 := by
  have fits : ∀ k reply, (shrinkingCommands k).response = some reply →
      reply.size ≤ aaudioBceQueueElementSize := by
    intro k reply response
    match k, response with
    | 0, rfl | 1, rfl | 2, rfl => decide
  have shrinks : ∀ k, Shrinks shrinkingCommands k := by
    intro k reply answers
    have same := handled_response answers.1
    match k, same with
    | 0, rfl => exact .inr ⟨fun j below => by omega, .inl (by decide)⟩
    | 1, rfl | 2, rfl =>
      refine .inr ⟨?_, .inl (by decide)⟩
      intro j below earlier handled
      have same := handled_response handled
      match j, same with
      | 0, rfl | 1, rfl | 2, rfl => decide
  have returns : result (fun _ => 0) shrinkingCommands 2 = .ok 37 := rfl
  obtain ⟨reply, handled, whole⟩ :=
    (reused_buffer_whole (fun _ => 0) shrinkingCommands fits).mpr shrinks 2 37 returns
  exact ⟨reply, returns, handled, whole⟩

/-- An empty uid and a list of three input streams. -/
def growingCommands : Nat → ReplyCommand :=
  sampleCommands (sampleReply 49 8 41 0) (sampleReply 53 25 21 3) (sampleReply 37 27 21 1)

/-- The list is cut to the size of the reply with the uid. -/
theorem longer_reply_cut :
    (∀ k reply, (growingCommands k).response = some reply → reply.size ≤ aaudioBceQueueElementSize) ∧
    result (fun _ => 0) growingCommands 1 = .ok 37 ∧
    ∀ reply, (growingCommands 1).handled = some reply →
      ¬Whole (before (fun _ => 0) growingCommands 2) 1 reply 37 := by
  refine ⟨?_, rfl, ?_⟩
  · intro k reply response
    match k, response with
    | 0, rfl | 1, rfl | 2, rfl => decide
  · intro reply handled whole
    obtain rfl := Option.some.inj handled
    have size : (49 : Nat) = 53 := whole.1
    omega

end ReusedBuffer

end AppleBce
