import SystemsLab.Search.Text

/-! The buffered output of the text search (`io.c`), for every way `write` answers. -/

namespace SystemsLab.Search

open CLib

def writeBufSize : ℕ := 65536

/-- How a call of `write` ends: with `EINTR`, with another error, or with at most `k` bytes taken. -/
inductive WriteAnswer
  | interrupted
  | failed
  | upTo (k : ℕ)
deriving DecidableEq

/-- How many bytes of `data` the descriptor takes, whether all of them, and the answers that are
left. A descriptor without answers takes everything. -/
def writeFull : List WriteAnswer → Bytes → ℕ × Bool × List WriteAnswer
  | answers, [] => (0, true, answers)
  | [], c :: data => ((c :: data).length, true, [])
  | .interrupted :: answers, c :: data => writeFull answers (c :: data)
  | .failed :: answers, _ :: _ => (0, false, answers)
  | .upTo k :: answers, c :: data =>
    let (taken, ok, left) := writeFull answers ((c :: data).drop k)
    (min k (c :: data).length + taken, ok, left)

def refuses : List WriteAnswer → Bool
  | .failed :: _ => true
  | .interrupted :: answers => refuses answers
  | .upTo 0 :: answers => refuses answers
  | _ => false

/-- `accepted` are the bytes that the descriptor has taken. `stale` is a ghost: how many bytes the
failed flushes of what is in the buffer have written. -/
structure OutBuf where
  buf : Bytes
  accepted : Bytes
  answers : List WriteAnswer
  stale : ℕ

namespace OutBuf

def init (answers : List WriteAnswer) : OutBuf := ⟨[], [], answers, 0⟩

def flush (out : OutBuf) : OutBuf × Bool :=
  if out.buf = [] then (out, true)
  else
    let (taken, ok, left) := writeFull out.answers out.buf
    let accepted := out.accepted ++ out.buf.take taken
    if ok then (⟨[], accepted, left, 0⟩, true)
    else (⟨out.buf, accepted, left, out.stale + taken⟩, false)

def makeRoom (out : OutBuf) : OutBuf × Bool :=
  if writeBufSize - out.buf.length = 0 then out.flush else (out, true)

def room (out : OutBuf) : ℕ :=
  let avail := writeBufSize - out.buf.length
  if avail = 0 then writeBufSize else avail

lemma room_pos (out : OutBuf) : 0 < out.room := by
  rw [room]
  split_ifs with hfull
  · decide
  · exact Nat.pos_of_ne_zero hfull

def writeData (out : OutBuf) (data : Bytes) : OutBuf × Bool :=
  if _h : data = [] then (out, true)
  else
    let (ready, ok) := out.makeRoom
    if ok then
      writeData { ready with buf := ready.buf ++ data.take out.room } (data.drop out.room)
    else (ready, false)
termination_by data.length
decreasing_by
  have hpos := List.length_pos_iff.mpr _h
  have hroom := out.room_pos
  rw [List.length_drop]
  omega

def writeByte (out : OutBuf) (ch : UInt8) : OutBuf × Bool := out.writeData [ch]

def writeDigits (out : OutBuf) : Bytes → OutBuf × Bool
  | [] => (out, true)
  | digit :: digits =>
    let (out, ok) := out.writeByte digit
    if ok then writeDigits out digits else (out, false)

def writeU32 (out : OutBuf) (value : UInt32) : OutBuf × Bool :=
  out.writeDigits (Search.writeU32 value)

inductive Call
  | data (bytes : Bytes)
  | byte (ch : UInt8)
  | u32 (value : UInt32)
  | flush
deriving DecidableEq

def Call.payload : Call → Bytes
  | .data bytes => bytes
  | .byte ch => [ch]
  | .u32 value => Search.writeU32 value
  | .flush => []

def call (out : OutBuf) : Call → OutBuf × Bool
  | .data bytes => out.writeData bytes
  | .byte ch => out.writeByte ch
  | .u32 value => out.writeU32 value
  | .flush => out.flush

end OutBuf

open OutBuf

structure Output where
  out : OutBuf
  passed : Bytes
  failed : Bool

namespace Output

def call (s : Output) (c : Call) : Output :=
  ⟨(s.out.call c).1, s.passed ++ c.payload, s.failed || !(s.out.call c).2⟩

def Allows (s : Output) (c : Call) : Prop := s.failed = true → c = .flush

inductive Run (Q : Output → Prop) (answers : List WriteAnswer) : Output → Prop
  | init : Run Q answers ⟨OutBuf.init answers, [], false⟩
  | call {s : Output} {c : Call} (h : Run Q answers s) (hallowed : s.Allows c) (hq : Q s) :
    Run Q answers (s.call c)

def Fresh (s : Output) : Prop := s.out.stale = 0 ∨ refuses s.out.answers = true

end Output

variable {out : OutBuf} {data before : Bytes} {answers : List WriteAnswer}

lemma writeFull_le (answers : List WriteAnswer) (data : Bytes) :
    (writeFull answers data).1 ≤ data.length ∧
      ((writeFull answers data).2.1 = true → (writeFull answers data).1 = data.length) := by
  fun_induction writeFull answers data with
  | case1 => simp
  | case2 => simp
  | case3 answers c data ih => exact ih
  | case4 => simp
  | case5 k answers c data taken ok left heq ih =>
    rw [heq, List.length_drop] at ih
    refine ⟨?_, fun hok => ?_⟩
    · have hle := ih.1
      simp only at hle ⊢
      omega
    · have hall := ih.2 hok
      simp only at hall ⊢
      omega

lemma writeFull_refuses (h : refuses answers = true) (hne : data ≠ []) :
    (writeFull answers data).1 = 0 ∧ (writeFull answers data).2.1 = false := by
  obtain ⟨c, data, rfl⟩ := List.exists_cons_of_ne_nil hne
  induction answers with
  | nil => cases h
  | cons answer answers ih =>
    cases answer with
    | interrupted => exact ih h
    | failed => exact ⟨rfl, rfl⟩
    | upTo k =>
      cases k with
      | zero =>
        obtain ⟨hnone, hfail⟩ := ih h
        simp only [writeFull, List.drop_zero, hnone, hfail, Nat.zero_min, Nat.add_zero, and_self]
      | succ k => cases h

structure Written (passed : Bytes) (out : OutBuf) (ok : Bool) : Prop where
  holds : ok = true → out.stale = 0 ∧ out.accepted ++ out.buf = passed
  part : ∃ front, out.accepted = front ++ out.buf.take out.stale ∧ front ++ out.buf <+: passed

variable {passed more : Bytes} {ok : Bool}

lemma written_of_fresh (hstale : out.stale = 0) (h : out.accepted ++ out.buf = passed) :
    Written passed out ok := by
  refine ⟨fun _ => ⟨hstale, h⟩, out.accepted, ?_, h ▸ List.prefix_rfl⟩
  rw [hstale, List.take_zero, List.append_nil]

lemma Written.front_accepted (h : Written passed out ok) : out.accepted <+: passed := by
  obtain ⟨front, haccepted, hpart⟩ := h.part
  rw [haccepted]
  exact ((List.prefix_append_right_inj front).mpr (List.take_prefix _ _)).trans hpart

lemma Written.weaken (h : Written passed out ok) (hpre : passed <+: more) :
    Written more out false := by
  obtain ⟨front, haccepted, hpart⟩ := h.part
  exact ⟨fun hok => absurd hok Bool.false_ne_true, front, haccepted, hpart.trans hpre⟩

lemma flush_written (hstale : out.stale = 0) (h : out.accepted ++ out.buf = passed) :
    Written passed out.flush.1 out.flush.2 ∧ (out.flush.2 = true → out.flush.1.buf = []) := by
  rw [flush]
  split_ifs with hnil
  · exact ⟨written_of_fresh hstale h, fun _ => hnil⟩
  · obtain ⟨hle, hall⟩ := writeFull_le out.answers out.buf
    cases hwrite : writeFull out.answers out.buf with
    | mk taken rest =>
      rw [hwrite] at hle hall
      simp only
      split_ifs with hok
      · refine ⟨written_of_fresh rfl ?_, fun _ => rfl⟩
        have htaken : taken = out.buf.length := hall hok
        rw [htaken, List.take_length, List.append_nil, h]
      · refine ⟨⟨fun hok => absurd hok Bool.false_ne_true, out.accepted, ?_, h ▸ List.prefix_rfl⟩,
          fun hok => hok.elim⟩
        rw [hstale, Nat.zero_add]

lemma makeRoom_written (hstale : out.stale = 0) (h : out.accepted ++ out.buf = passed) :
    Written passed out.makeRoom.1 out.makeRoom.2 := by
  rw [makeRoom]
  split_ifs
  · exact (flush_written hstale h).1
  · exact written_of_fresh hstale h

lemma writeData_written (hstale : out.stale = 0) (h : out.accepted ++ out.buf = passed) :
    Written (passed ++ data) (out.writeData data).1 (out.writeData data).2 := by
  induction hlen : data.length using Nat.strong_induction_on generalizing out data passed with
  | _ len ih =>
    rw [writeData]
    split_ifs with hnil
    · subst hnil
      exact written_of_fresh hstale (h.trans (List.append_nil _).symm)
    · have hready := makeRoom_written hstale h
      have hshort : (data.drop out.room).length < len := by
        have hpos := List.length_pos_iff.mpr hnil
        have hroom := out.room_pos
        rw [List.length_drop]
        omega
      cases hmake : out.makeRoom with
      | mk ready ok =>
        rw [hmake] at hready
        cases ok with
        | false => exact hready.weaken (List.prefix_append _ _)
        | true =>
          obtain ⟨hstale', hpassed⟩ := hready.holds rfl
          have hpassed' : ready.accepted ++ (ready.buf ++ data.take out.room) =
              passed ++ data.take out.room := by
            rw [← hpassed, List.append_assoc]
          have hnext := @ih _ hshort { ready with buf := ready.buf ++ data.take out.room } _ _
            hstale' hpassed' rfl
          rwa [List.append_assoc, List.take_append_drop] at hnext

lemma writeDigits_written (digits : Bytes) (hstale : out.stale = 0)
    (h : out.accepted ++ out.buf = passed) :
    Written (passed ++ digits) (out.writeDigits digits).1 (out.writeDigits digits).2 := by
  induction digits generalizing out passed with
  | nil => exact written_of_fresh hstale (h.trans (List.append_nil _).symm)
  | cons digit digits ih =>
    have hbyte : Written (passed ++ [digit]) (out.writeData [digit]).1 (out.writeData [digit]).2 :=
      writeData_written hstale h
    rw [List.append_cons, writeDigits, writeByte]
    cases hwrite : out.writeData [digit] with
    | mk next ok =>
      rw [hwrite] at hbyte
      cases ok with
      | false => exact hbyte.weaken (List.prefix_append _ _)
      | true => exact ih (hbyte.holds rfl).1 (hbyte.holds rfl).2

lemma call_written (c : OutBuf.Call) (hstale : out.stale = 0) (h : out.accepted ++ out.buf = passed) :
    Written (passed ++ c.payload) (out.call c).1 (out.call c).2 := by
  cases c with
  | data bytes => exact writeData_written hstale h
  | byte ch => exact writeData_written hstale h
  | u32 value => exact writeDigits_written _ hstale h
  | flush =>
    rw [OutBuf.Call.payload, List.append_nil]
    exact (flush_written hstale h).1

lemma flush_refused (hrefuses : refuses out.answers = true) (h : Written passed out false) :
    Written passed out.flush.1 false := by
  rw [flush]
  split_ifs with hnil
  · exact h
  · obtain ⟨hnone, hfail⟩ := writeFull_refuses hrefuses hnil
    obtain ⟨front, haccepted, hpart⟩ := h.part
    simp only [hnone, hfail]
    refine ⟨fun hok => absurd hok Bool.false_ne_true, front, ?_, hpart⟩
    rw [List.take_zero, List.append_nil, haccepted]
    rfl

lemma Output.run_written {s : Output} (h : Run Fresh answers s) :
    Written s.passed s.out (!s.failed) := by
  induction h with
  | init => exact written_of_fresh rfl rfl
  | @call s c h hallowed hq ih =>
    obtain ⟨out, passed, failed⟩ := s
    cases failed with
    | false =>
      obtain ⟨hstale, hpassed⟩ := ih.holds rfl
      have hcall := call_written c hstale hpassed
      simp only [Output.call, Bool.false_or, Bool.not_not]
      exact hcall
    | true =>
      obtain rfl := hallowed rfl
      simp only [Output.call, OutBuf.Call.payload, List.append_nil, Bool.true_or, Bool.not_true]
      rcases hq with hstale | hrefuses
      · obtain ⟨front, haccepted, hpart⟩ := ih.part
        simp only at hstale haccepted hpart
        rw [hstale, List.take_zero, List.append_nil] at haccepted
        exact (flush_written hstale rfl).1.weaken (haccepted ▸ hpart)
      · exact flush_refused hrefuses ih

variable (answers) in
theorem accepted_part {s : Output} (h : Output.Run Output.Fresh answers s) :
    s.out.accepted <+: s.passed :=
  (Output.run_written h).front_accepted

lemma writeData_fits (hne : data ≠ []) (hfit : out.buf.length + data.length ≤ writeBufSize) :
    out.writeData data = ({ out with buf := out.buf ++ data }, true) := by
  have hpos := List.length_pos_iff.mpr hne
  have havail : writeBufSize - out.buf.length ≠ 0 := by omega
  have hroom : data.length ≤ out.room := by
    rw [room, if_neg havail]
    omega
  rw [writeData, dif_neg hne, makeRoom, if_neg havail]
  simp only [if_true, List.take_of_length_le hroom, List.drop_of_length_le hroom]
  rw [writeData, dif_pos rfl]

lemma Output.Run.fits {Q : Output → Prop} (h : Run Q answers ⟨out, passed, false⟩) (data : Bytes)
    (hq : Q ⟨out, passed, false⟩) (hne : data ≠ [])
    (hfit : out.buf.length + data.length ≤ writeBufSize) :
    Run Q answers ⟨{ out with buf := out.buf ++ data }, passed ++ data, false⟩ := by
  have hcall := h.call (c := .data data) (fun hfailed => absurd hfailed Bool.false_ne_true) hq
  rwa [Output.call, OutBuf.call, writeData_fits hne hfit] at hcall

theorem accepted_part_failed :
    (Output.call ⟨⟨ascii "1:0\n2", [], [.upTo 3, .failed], 0⟩, ascii "1:0\n2", false⟩
      .flush).out.accepted <+: ascii "1:0\n2" := by
  have hinit : Output.Run Output.Fresh [.upTo 3, .failed] ⟨init _, [], false⟩ := .init
  have hwritten := hinit.fits (ascii "1:0\n2") (.inl rfl) (by decide) (by decide)
  exact accepted_part [.upTo 3, .failed] (hwritten.call (c := .flush) (fun _ => rfl) (.inl rfl))

/-- The first flush of two line offsets fails in the second one, and the next flush writes both. -/
theorem second_flush_repeats : ¬∀ (answers : List WriteAnswer) (s : Output),
    Output.Run (fun _ => True) answers s → s.out.accepted <+: s.passed := by
  intro h
  have hinit : Output.Run (fun _ => True) [.upTo 9, .failed] ⟨init _, [], false⟩ := .init
  have hoffsets := (hinit.fits (leBytes 8 0) trivial (by decide) (by decide)).fits
    (leBytes 8 5) trivial (by decide) (by decide)
  have hflushes := h _ _ ((hoffsets.call (c := .flush) (fun _ => rfl) trivial).call (c := .flush)
    (fun _ => rfl) trivial)
  exact absurd hflushes (by decide)

end SystemsLab.Search
