import AppleBce.Audio.Readers

namespace AppleBce

open Basis

/-- An array of 64-bit values with its length before it, in a message from `start` to `fin`. -/
structure PrefixedArray (msg : AaudioMsg Byte) (start cnt fin : Nat) : Prop where
  count : readVal msg.data start 8 = cnt
  length : fin = start + 8 + cnt * 8
  inside : fin ≤ msg.size

/-- The body of a control list: the arrays of the control ids, the elements and the scopes. -/
def ControlListBody (msg : AaudioMsg Byte) : Prop :=
  ∃ cnt controls elements scopes, PrefixedArray msg 21 cnt controls ∧
    PrefixedArray msg controls cnt elements ∧ PrefixedArray msg elements cnt scopes

/-- A message that starts like an answer to the request for the control list. -/
structure ControlListStart (msg : AaudioMsg Byte) : Prop where
  long : aaudioMsgHeaderSize + aaudioMsgBaseSize ≤ msg.size
  code : readVal msg.data aaudioMsgHeaderSize 4 = aaudioMsgGetControlListResponse

theorem controlList_verified {msg : AaudioMsg Byte} :
    aaudioMsgVerify msg aaudioMsgGetControlListResponse false = .ok () ↔ ControlListStart msg := by
  rw [aaudioMsgVerify]
  split
  · next short => exact iff_of_false (by simp) fun start => absurd start.long (Nat.not_le.mpr short)
  next long =>
    split
    · next other => exact iff_of_false (by simp) fun start => absurd start.code other
    next same =>
      refine iff_of_true ?_ ⟨Nat.not_lt.mp long, not_not.mp same⟩
      simp only [Bool.false_eq_true, if_false, ite_self]

theorem controlListBody_iff {msg : AaudioMsg Byte} {cnt : Nat} (count : readVal msg.data 21 8 = cnt) :
    ControlListBody msg ↔ 45 + cnt * 24 ≤ msg.size ∧ readVal msg.data (29 + cnt * 8) 8 = cnt ∧
      readVal msg.data (37 + cnt * 16) 8 = cnt := by
  constructor
  · rintro ⟨n, controls, elements, scopes, first, second, third⟩
    have same : n = cnt := first.count.symm.trans count
    subst same
    have firstEnd : controls = 29 + n * 8 := by rw [first.length]
    have secondEnd : elements = 37 + n * 16 := by
      rw [second.length]
      omega
    subst firstEnd secondEnd
    have lastEnd := third.length
    have inside := third.inside
    exact ⟨by omega, second.count, third.count⟩
  · rintro ⟨inside, second, third⟩
    exact ⟨cnt, 29 + cnt * 8, 37 + cnt * 16, 45 + cnt * 24, ⟨count, by omega, by omega⟩,
      ⟨second, by omega, by omega⟩, ⟨third, by omega, by omega⟩⟩

namespace MsgReader

variable {msg : AaudioMsg Byte}

theorem run_skipArray {data : Nat → Byte} {offset cnt : Nat} (fits : offset + cnt * 8 < 2 ^ 64) :
    (skipArray cnt).run data offset = ⟨.ok ((), offset + cnt * 8), 0⟩ := by
  simp [skipArray, run_word (by omega : cnt * 8 < 2 ^ 64), run_word fits]

/-- How the reader ends behind the start of the message: each check looks at bytes that the checks
before it have shown to be there. -/
theorem controlList_run {cnt : Nat}
    (verified : aaudioMsgVerify msg aaudioMsgGetControlListResponse false = .ok ())
    (fits : msg.size < 2 ^ 64) (count : readVal msg.data 21 8 = cnt) :
    (aaudioMsgReadGetControlListResponse msg.size).run msg.data 0 =
      if msg.size < 29 then ⟨.error (.errno .inval), 21⟩
      else if msg.size < 45 + cnt * 24 then ⟨.error (.errno .inval), 29⟩
      else if readVal msg.data (29 + cnt * 8) 8 ≠ cnt then ⟨.error (.errno .inval), 37 + cnt * 8⟩
      else if readVal msg.data (37 + cnt * 16) 8 ≠ cnt then ⟨.error (.errno .inval), 45 + cnt * 16⟩
      else ⟨.ok ({ ctrlL := 29, elemL := 37 + cnt * 8, scopeL := 45 + cnt * 16, ctrlCnt := cnt },
        45 + cnt * 24), 45 + cnt * 16⟩ := by
  have start := aaudioMsgVerify_size verified
  rw [aaudioMsgReadGetControlListResponse]
  simp only [ByteReader.run_bind, run_readStart verified, ByteReader.continued_ok,
    ByteReader.run_position]
  by_cases short : msg.size < 29
  · rw [if_pos short, if_pos short]
    rfl
  rw [if_neg short, if_neg short]
  simp only [ByteReader.run_bind, run_readVar, count, ByteReader.continued_ok]
  by_cases many : (2 ^ 64 - 1 - 2 * 8) / (3 * 8) < cnt
  · rw [if_pos many, if_pos (by omega)]
    rfl
  rw [if_neg many]
  simp only [ByteReader.run_bind, run_word (by omega : cnt * 3 < 2 ^ 64),
    run_word (by omega : cnt * 3 * 8 < 2 ^ 64), run_word (by omega : cnt * 3 * 8 + 2 * 8 < 2 ^ 64),
    ByteReader.continued_ok, ByteReader.run_position]
  by_cases room : msg.size < 45 + cnt * 24
  · rw [if_pos room, if_pos (by omega)]
    rfl
  rw [if_neg room, if_neg (by omega)]
  have second : 21 + 8 + cnt * 8 = 29 + cnt * 8 := by omega
  have third : 29 + cnt * 8 + 8 + cnt * 8 = 37 + cnt * 16 := by omega
  have elemL : 29 + cnt * 8 + 8 = 37 + cnt * 8 := by omega
  have scopeL : 37 + cnt * 16 + 8 = 45 + cnt * 16 := by omega
  have reachSecond : max 21 (max 29 (37 + cnt * 8)) = 37 + cnt * 8 := by omega
  have reachThird : max 21 (max 29 (max (37 + cnt * 8) (45 + cnt * 16))) = 45 + cnt * 16 := by omega
  have last : 45 + cnt * 16 + cnt * 8 = 45 + cnt * 24 := by omega
  simp only [ByteReader.run_bind, run_skipArray (by omega : 21 + 8 + cnt * 8 < 2 ^ 64), second,
    run_readVar, ByteReader.continued_ok, ByteReader.run_position]
  by_cases elements : readVal msg.data (29 + cnt * 8) 8 = cnt
  · rw [if_neg (not_not.mpr elements), if_neg (not_not.mpr elements)]
    simp only [ByteReader.run_bind, third, run_readVar, ByteReader.continued_ok,
      ByteReader.run_position, run_skipArray (by omega : 29 + cnt * 8 + 8 + cnt * 8 < 2 ^ 64)]
    by_cases scopes : readVal msg.data (37 + cnt * 16) 8 = cnt
    · rw [if_neg (not_not.mpr scopes), if_neg (not_not.mpr scopes)]
      simp only [ByteReader.run_bind, last, ByteReader.continued_ok, ByteReader.run_position,
        ByteReader.run_pure, run_skipArray (by omega : 45 + cnt * 16 + cnt * 8 < 2 ^ 64),
        elemL, scopeL, Nat.zero_max, Nat.max_zero, Nat.reduceAdd]
      rw [reachThird]
    · rw [if_pos scopes, if_pos scopes, run_fail]
      simp only [elemL, scopeL, Nat.zero_max, Nat.max_zero, Nat.reduceAdd]
      rw [reachThird]
  · rw [if_pos elements, if_pos elements, run_fail]
    simp only [elemL, Nat.zero_max, Nat.max_zero, Nat.reduceAdd]
    rw [reachSecond]

theorem controlList_accepted (verified : aaudioMsgVerify msg aaudioMsgGetControlListResponse false = .ok ())
    (fits : msg.size < 2 ^ 64) (body : ControlListBody msg) :
    (aaudioMsgReadGetControlListResponse msg.size).run msg.data 0 =
      ⟨.ok ({ ctrlL := 29, elemL := 37 + readVal msg.data 21 8 * 8,
              scopeL := 45 + readVal msg.data 21 8 * 16, ctrlCnt := readVal msg.data 21 8 },
        45 + readVal msg.data 21 8 * 24), 45 + readVal msg.data 21 8 * 16⟩ := by
  obtain ⟨inside, second, third⟩ := (controlListBody_iff rfl).mp body
  rw [controlList_run verified fits rfl, if_neg (by omega), if_neg (by omega),
    if_neg (not_not.mpr second), if_neg (not_not.mpr third)]

theorem controlList_rejected (verified : aaudioMsgVerify msg aaudioMsgGetControlListResponse false = .ok ())
    (fits : msg.size < 2 ^ 64) (other : ¬ControlListBody msg) :
    ∃ reach ≤ msg.size, (aaudioMsgReadGetControlListResponse msg.size).run msg.data 0 =
      ⟨.error (.errno .inval), reach⟩ := by
  have long := aaudioMsgVerify_size verified
  rw [controlListBody_iff rfl] at other
  rw [controlList_run verified fits rfl]
  split
  · exact ⟨21, long, rfl⟩
  split
  · exact ⟨29, by omega, rfl⟩
  split
  · exact ⟨_, by omega, rfl⟩
  split
  · exact ⟨_, by omega, rfl⟩
  · exact absurd ⟨by omega, by omega, by omega⟩ other

/-- A message that is refused for its start is not looked at any further. -/
theorem controlList_refused {e : Errno}
    (refused : aaudioMsgVerify msg aaudioMsgGetControlListResponse false = .error e) :
    ∃ reach ≤ msg.size, (aaudioMsgReadGetControlListResponse msg.size).run msg.data 0 =
      ⟨.error (.errno e), reach⟩ := by
  refine ⟨_, ?_, ByteReader.continued_of_error _ (run_readStart_error refused)⟩
  rw [readStart]
  simp only
  split
  · exact Nat.zero_le _
  next long => exact Nat.not_lt.mp long

/-- Every message that the reader does not accept is looked at only where it has bytes. -/
theorem controlList_failed (fits : msg.size < 2 ^ 64)
    (other : ¬(ControlListStart msg ∧ ControlListBody msg)) :
    ∃ e, ∃ reach ≤ msg.size, (aaudioMsgReadGetControlListResponse msg.size).run msg.data 0 =
      ⟨.error (.errno e), reach⟩ := by
  cases verified : aaudioMsgVerify msg aaudioMsgGetControlListResponse false with
  | error e => exact ⟨e, controlList_refused verified⟩
  | ok =>
    refine ⟨.inval, controlList_rejected verified fits fun body => other ⟨?_, body⟩⟩
    exact controlList_verified.mp verified

end MsgReader

/-- The reader accepts a message if and only if its body starts with three arrays of one length, each
with the length before it, that are all inside. It never leaves the range of 64 bits and never looks
behind the message, and what it reports are the three arrays, one behind the other. -/
theorem control_list_grammar (msg : AaudioMsg Byte) (fits : msg.size < 2 ^ 64) :
    let outcome := (MsgReader.aaudioMsgReadGetControlListResponse msg.size).run msg.data 0
    ((∃ list past, outcome.result = .ok (list, past)) ↔ ControlListStart msg ∧ ControlListBody msg) ∧
    outcome.result ≠ .error .wrap ∧ outcome.reach ≤ msg.size ∧
    ∀ list past, outcome.result = .ok (list, past) →
      PrefixedArray msg 21 list.ctrlCnt (list.ctrlL + list.ctrlCnt * 8) ∧
      PrefixedArray msg (list.ctrlL + list.ctrlCnt * 8) list.ctrlCnt (list.elemL + list.ctrlCnt * 8) ∧
      PrefixedArray msg (list.elemL + list.ctrlCnt * 8) list.ctrlCnt
        (list.scopeL + list.ctrlCnt * 8) ∧
      list.ctrlL + list.ctrlCnt * 8 ≤ list.elemL ∧ list.elemL + list.ctrlCnt * 8 ≤ list.scopeL := by
  intro outcome
  by_cases accepted : ControlListStart msg ∧ ControlListBody msg
  · obtain ⟨inside, second, third⟩ := (controlListBody_iff rfl).mp accepted.2
    have ended : outcome = _ :=
      MsgReader.controlList_accepted (controlList_verified.mpr accepted.1) fits accepted.2
    rw [ended]
    refine ⟨iff_of_true ⟨_, _, rfl⟩ accepted, nofun, by simp only; omega, ?_⟩
    rintro list past ⟨⟩
    have middle : 37 + readVal msg.data 21 8 * 8 + readVal msg.data 21 8 * 8 =
        37 + readVal msg.data 21 8 * 16 := by omega
    refine ⟨⟨rfl, rfl, by simp only; omega⟩, ⟨second, by simp only; omega, by simp only; omega⟩,
      ⟨?_, by simp only; omega, by simp only; omega⟩, by simp only; omega, by simp only; omega⟩
    rw [middle]
    exact third
  · obtain ⟨e, reach, inside, ended⟩ := MsgReader.controlList_failed fits accepted
    have ended : outcome = _ := ended
    rw [ended]
    exact ⟨iff_of_false nofun accepted, nofun, inside, nofun⟩

/-- A list of two controls, with the ids, the elements and the scopes. -/
def twoControls : AaudioMsg Byte where
  data i :=
    ([(13, 29#8), (21, 2#8), (29, 1#8), (37, 2#8), (45, 2#8), (69, 2#8), (77, 1#8), (85, 1#8)].lookup i).getD 0#8
  size := 93

theorem control_list_grammar_two : ∃ list past,
    ((MsgReader.aaudioMsgReadGetControlListResponse 93).run twoControls.data 0).result = .ok (list, past) ∧
      PrefixedArray twoControls 21 list.ctrlCnt (list.ctrlL + list.ctrlCnt * 8) ∧
      list.elemL + list.ctrlCnt * 8 ≤ list.scopeL := by
  obtain ⟨accepts, -, -, arrays⟩ := control_list_grammar twoControls (by decide)
  obtain ⟨list, past, accepted⟩ := accepts.mpr
    ⟨⟨by decide, rfl⟩, 2, 45, 69, 93, ⟨rfl, rfl, by decide⟩, ⟨rfl, rfl, by decide⟩, ⟨rfl, rfl, by decide⟩⟩
  obtain ⟨controls, -, -, -, apart⟩ := arrays list past accepted
  exact ⟨list, past, accepted, controls, apart⟩

end AppleBce
