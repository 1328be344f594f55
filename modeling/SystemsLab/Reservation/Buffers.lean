import SystemsLab.Reservation.Wire

namespace SystemsLab.Reservation

open CLib Streams

/-- How `receive_request` ends without a request: it returns false, it terminates the process, or it
calls `read` for more bytes than the buffer has. -/
inductive Failure
  | closed
  | exited
  | overrun
deriving DecidableEq

abbrev Receiver := StateT (Input UInt8 Socket) (Except Failure)

def ofReader {α : Type} (m : Reader UInt8 Socket α) : Receiver α := fun i =>
  (m i).elim (.error .closed) .ok

def calloc (provides : ℕ → Bool) (size : UInt64) : Option Bytes :=
  if provides size.toNat then some (List.replicate size.toNat 0) else none

def safeReadInto (buf : Bytes) (count : ℕ) : Receiver Bytes :=
  if buf.length < count then throw .overrun
  else do
    let b ← ofReader (readFull count)
    pure (b ++ buf.drop count)

variable (provides : ℕ → Bool)

/-- `username` or `data` with the length `n`: the size of the buffer is computed in 64 bits. -/
def receiveBuffer (n : UInt64) : Receiver (Option Bytes) :=
  if 0 < n then
    match calloc provides (n + 1) with
    | none => throw .exited
    | some buf => do
      let b ← safeReadInto buf n.toNat
      pure (some b)
  else pure none

def receiveInto : Receiver Request := do
  let action ← ofReader readInt32
  let usernameLength ← ofReader readUInt64
  let dataSize ← ofReader readUInt64
  let username ← receiveBuffer provides usernameLength
  let data ← receiveBuffer provides dataSize
  pure ⟨usernameLength, dataSize, action, username, data⟩

structure Filled (buf : Option Bytes) (n : UInt64) (chunk : Bytes) : Prop where
  length : chunk.length = n.toNat
  buf_eq : buf = if 0 < n then some (chunk ++ [0]) else none

structure Receives (action : Int32) (usernameLength dataSize : UInt64) (stream : Bytes)
    (r : Request) (rest : Bytes) : Prop where
  action_eq : r.action = action
  usernameLength_eq : r.usernameLength = usernameLength
  dataSize_eq : r.dataSize = dataSize
  buffers : ∃ username data, stream = username ++ (data ++ rest) ∧
    Filled r.username usernameLength username ∧ Filled r.data dataSize data

def headerBytes (action : Int32) (usernameLength dataSize : UInt64) : Bytes :=
  int32Bytes action ++ (uint64Bytes usernameLength ++ uint64Bytes dataSize)

def receiveFrame (action : Int32) (usernameLength dataSize : UInt64) (stream : Bytes)
    (socket : Socket) : Except Failure (Request × Input UInt8 Socket) :=
  receiveInto provides ⟨headerBytes action usernameLength dataSize ++ stream, socket⟩

inductive SafeAnswer (action : Int32) (usernameLength dataSize : UInt64) (stream : Bytes) :
    Except Failure (Request × Input UInt8 Socket) → Prop
  | received {r : Request} {i : Input UInt8 Socket}
    (h : Receives action usernameLength dataSize stream r i.bytes) :
    SafeAnswer action usernameLength dataSize stream (.ok (r, i))
  | closed : SafeAnswer action usernameLength dataSize stream (.error .closed)

def Lacks (n : UInt64) : Prop := 0 < n ∧ provides (n.toNat + 1) = false

/-- A request with its buffers; a connection that is closed because the stream ends in the frame; or
a server that terminates because the memory for a field that it comes to is missing. -/
inductive FrameAnswer (action : Int32) (usernameLength dataSize : UInt64) (stream : Bytes) :
    Except Failure (Request × Input UInt8 Socket) → Prop
  | received {r : Request} {i : Input UInt8 Socket}
    (h : Receives action usernameLength dataSize stream r i.bytes) :
    FrameAnswer action usernameLength dataSize stream (.ok (r, i))
  | closed (h : stream.length < usernameLength.toNat + dataSize.toNat) :
    FrameAnswer action usernameLength dataSize stream (.error .closed)
  | exited (h : Lacks provides usernameLength ∨
      usernameLength.toNat ≤ stream.length ∧ Lacks provides dataSize) :
    FrameAnswer action usernameLength dataSize stream (.error .exited)

variable {provides} {stream : Bytes} {n : UInt64} {socket : Socket} {count : ℕ}

section Bind

variable {α β : Type} {m : Receiver α} {f : α → Receiver β} {i i' : Input UInt8 Socket} {a : α}
  {e : Failure}

lemma bind_received (h : m i = .ok (a, i')) : (m >>= f) i = f a i' := by
  change (m i).bind _ = _
  rw [h]
  rfl

lemma bind_failed (h : m i = .error e) : (m >>= f) i = .error e := by
  change (m i).bind _ = _
  rw [h]
  rfl

lemma bind_congr_received {m' : Receiver α} {f' : α → Receiver β} (h : m i = m' i)
    (hf : ∀ a i', f a i' = f' a i') : (m >>= f) i = (m' >>= f') i := by
  cases hm : m i with
  | error e => rw [bind_failed hm, bind_failed (h ▸ hm)]
  | ok result => rw [bind_received hm, bind_received (h ▸ hm), hf]

lemma ofReader_some {m : Reader UInt8 Socket α} (h : m i = some (a, i')) :
    ofReader m i = .ok (a, i') := by
  rw [ofReader, h]
  rfl

lemma ofReader_none {m : Reader UInt8 Socket α} (h : m i = none) :
    ofReader m i = .error .closed := by
  rw [ofReader, h]
  rfl

end Bind

lemma readFull_short (socket : Socket) (h : stream.length < count) :
    readFull count ⟨stream, socket⟩ = none := by
  have hlen : (stream ++ List.replicate (count - stream.length) 0).length = count := by
    rw [List.length_append, List.length_replicate]
    omega
  have hcut := (readFull_decodes (stream ++ List.replicate (count - stream.length) 0)).cut stream
    socket (List.prefix_append _ _)
  rw [hlen] at hcut
  apply hcut
  intro heq
  have hstream := congrArg List.length heq
  omega

lemma readFull_take (socket : Socket) (h : count ≤ stream.length) :
    ∃ socket', readFull count ⟨stream, socket⟩ =
      some (stream.take count, ⟨stream.drop count, socket'⟩) := by
  obtain ⟨socket', hread⟩ := (readFull_decodes (stream.take count)).whole (stream.drop count) socket
  rw [List.take_append_drop, List.length_take_of_le h] at hread
  exact ⟨socket', hread⟩

inductive FieldAnswer (provides : ℕ → Bool) (n : UInt64) (stream : Bytes) :
    Except Failure (Option Bytes × Input UInt8 Socket) → Prop
  | filled {buf : Option Bytes} {chunk rest : Bytes} {socket : Socket} (h : stream = chunk ++ rest)
    (hbuf : Filled buf n chunk) : FieldAnswer provides n stream (.ok (buf, ⟨rest, socket⟩))
  | closed (h : stream.length < n.toNat) : FieldAnswer provides n stream (.error .closed)
  | exited (h : Lacks provides n) : FieldAnswer provides n stream (.error .exited)

lemma toNat_add_one (h : n.toNat + 1 < 2 ^ 64) : (n + 1).toNat = n.toNat + 1 := by
  rw [UInt64.toNat_add, UInt64.toNat_one, Nat.mod_eq_of_lt h]

lemma safeReadInto_calloc (size : ℕ) :
    safeReadInto (List.replicate (size + 1) 0) size = (do
      let b ← ofReader (readFull size)
      pure (b ++ [0])) := by
  have hfits : ¬(List.replicate (size + 1) (0 : UInt8)).length < size := by
    rw [List.length_replicate]
    omega
  have hnul : (List.replicate (size + 1) (0 : UInt8)).drop size = [0] := by
    rw [List.drop_replicate, Nat.add_sub_cancel_left]
    rfl
  rw [safeReadInto, if_neg hfits, hnul]

variable (provides) in
lemma receiveBuffer_answers (h : n.toNat + 1 < 2 ^ 64) (stream : Bytes) (socket : Socket) :
    FieldAnswer provides n stream (receiveBuffer provides n ⟨stream, socket⟩) := by
  rw [receiveBuffer]
  split_ifs with hpos
  · rw [calloc, toNat_add_one h]
    cases hroom : provides (n.toNat + 1) with
    | false => exact .exited ⟨hpos, hroom⟩
    | true =>
      simp only [if_true, safeReadInto_calloc]
      rcases Nat.lt_or_ge stream.length n.toNat with hshort | hlong
      · have hread := ofReader_none (readFull_short socket hshort)
        rw [bind_failed (bind_failed hread)]
        exact .closed hshort
      · obtain ⟨socket', hread⟩ := readFull_take socket hlong
        rw [bind_received (bind_received (ofReader_some hread))]
        exact .filled (List.take_append_drop _ _).symm
          ⟨List.length_take_of_le hlong, by rw [if_pos hpos]⟩
  · have hzero : n.toNat = 0 := by
      rw [UInt64.lt_iff_toNat_lt] at hpos
      simpa using hpos
    exact .filled (List.nil_append stream).symm ⟨by rw [hzero]; rfl, by rw [if_neg hpos]⟩

variable {action : Int32} {usernameLength dataSize : UInt64}

lemma read_headerBytes (action : Int32) (usernameLength dataSize : UInt64) (stream : Bytes)
    (socket : Socket) : ∃ socket₁ socket₂ socket₃,
      readInt32 ⟨headerBytes action usernameLength dataSize ++ stream, socket⟩ = some (action,
        ⟨uint64Bytes usernameLength ++ (uint64Bytes dataSize ++ stream), socket₁⟩) ∧
      readUInt64 ⟨uint64Bytes usernameLength ++ (uint64Bytes dataSize ++ stream), socket₁⟩ =
        some (usernameLength, ⟨uint64Bytes dataSize ++ stream, socket₂⟩) ∧
      readUInt64 ⟨uint64Bytes dataSize ++ stream, socket₂⟩ = some (dataSize, ⟨stream, socket₃⟩) := by
  obtain ⟨socket₁, haction⟩ := (readInt32_decodes action).whole
    (uint64Bytes usernameLength ++ (uint64Bytes dataSize ++ stream)) socket
  obtain ⟨socket₂, husername⟩ := (readUInt64_decodes usernameLength).whole
    (uint64Bytes dataSize ++ stream) socket₁
  obtain ⟨socket₃, hdata⟩ := (readUInt64_decodes dataSize).whole stream socket₂
  refine ⟨socket₁, socket₂, socket₃, ?_, husername, hdata⟩
  rw [headerBytes, List.append_assoc, List.append_assoc, haction]

lemma receiveFrame_eq (provides : ℕ → Bool) (action : Int32) (usernameLength dataSize : UInt64)
    (stream : Bytes) (socket : Socket) :
    ∃ socket', receiveFrame provides action usernameLength dataSize stream socket =
      (do
        let username ← receiveBuffer provides usernameLength
        let data ← receiveBuffer provides dataSize
        pure ⟨usernameLength, dataSize, action, username, data⟩ : Receiver Request)
        ⟨stream, socket'⟩ := by
  obtain ⟨socket₁, socket₂, socket₃, haction, husername, hdata⟩ :=
    read_headerBytes action usernameLength dataSize stream socket
  refine ⟨socket₃, ?_⟩
  rw [receiveFrame, receiveInto, bind_received (ofReader_some haction),
    bind_received (ofReader_some husername), bind_received (ofReader_some hdata)]

lemma Filled.length_le {buf : Option Bytes} {chunk rest : Bytes} (h : Filled buf n chunk) :
    n.toNat ≤ (chunk ++ rest).length := by
  rw [List.length_append, h.length]
  exact Nat.le_add_right _ _

variable (provides stream socket action) in
theorem receiveFrame_answers (husername : usernameLength.toNat + 1 < 2 ^ 64)
    (hdata : usernameLength.toNat ≤ stream.length → dataSize.toNat + 1 < 2 ^ 64) :
    FrameAnswer provides action usernameLength dataSize stream
      (receiveFrame provides action usernameLength dataSize stream socket) := by
  obtain ⟨socket', hframe⟩ := receiveFrame_eq provides action usernameLength dataSize stream socket
  have hfirst := receiveBuffer_answers provides husername stream socket'
  rw [hframe]
  cases husr : receiveBuffer provides usernameLength ⟨stream, socket'⟩ with
  | error e =>
    rw [husr] at hfirst
    rw [bind_failed husr]
    cases hfirst with
    | closed h => exact .closed (Nat.lt_of_lt_of_le h (Nat.le_add_right _ _))
    | exited h => exact .exited (Or.inl h)
  | ok result =>
    rw [husr] at hfirst
    cases hfirst with
    | @filled buf chunk rest socket₁ h hbuf =>
      rw [bind_received husr]
      subst h
      have hsecond := receiveBuffer_answers provides (hdata hbuf.length_le) rest socket₁
      cases hdat : receiveBuffer provides dataSize ⟨rest, socket₁⟩ with
      | error e =>
        rw [hdat] at hsecond
        rw [bind_failed hdat]
        cases hsecond with
        | closed h =>
          apply FrameAnswer.closed
          rw [List.length_append, hbuf.length]
          exact Nat.add_lt_add_left h _
        | exited h => exact .exited (Or.inr ⟨hbuf.length_le, h⟩)
      | ok result =>
        rw [hdat] at hsecond
        cases hsecond with
        | @filled buf₂ chunk₂ rest₂ socket₂ h hbuf₂ =>
          rw [bind_received hdat]
          subst h
          exact .received ⟨rfl, rfl, rfl, chunk, chunk₂, rfl, hbuf, hbuf₂⟩

theorem receiveFrame_answers_logout : FrameAnswer (fun _ => true) Action.logout.code 1 0 [97]
    (receiveFrame (fun _ => true) Action.logout.code 1 0 [97] ⟨[], false⟩) :=
  receiveFrame_answers (fun _ => true) [97] ⟨[], false⟩ Action.logout.code (by decide)
    (fun _ => by decide)

theorem header_terminates_server : ¬∀ (provides : ℕ → Bool) (action : Int32)
    (usernameLength dataSize : UInt64) (stream : Bytes) (socket : Socket),
    SafeAnswer action usernameLength dataSize stream
      (receiveFrame provides action usernameLength dataSize stream socket) := by
  intro h
  have hsafe := h (fun size => size < 2 ^ 47) Action.book.code 0 9223372036854775808 [] ⟨[], false⟩
  obtain ⟨socket, hframe⟩ := receiveFrame_eq (fun size => size < 2 ^ 47)
    Action.book.code 0 9223372036854775808 [] ⟨[], false⟩
  have hexit : receiveBuffer (fun size => size < 2 ^ 47) 9223372036854775808 ⟨[], socket⟩ =
      .error .exited := by
    rw [receiveBuffer, if_pos (by decide), calloc, if_neg (by decide)]
    rfl
  rw [hframe, bind_received rfl, bind_failed hexit] at hsafe
  cases hsafe

lemma receiveBuffer_wraps (hzero : provides 0 = true) (i : Input UInt8 Socket) :
    receiveBuffer provides (UInt64.ofNat (2 ^ 64 - 1)) i = .error .overrun := by
  have hwrap : (UInt64.ofNat (2 ^ 64 - 1) + 1).toNat = 0 := by decide
  have hpos : 0 < UInt64.ofNat (2 ^ 64 - 1) := by decide
  have hsmall : (List.replicate 0 (0 : UInt8)).length < (UInt64.ofNat (2 ^ 64 - 1)).toNat := by decide
  rw [receiveBuffer, if_pos hpos, calloc, hwrap, if_pos hzero]
  exact bind_failed (by rw [safeReadInto, if_pos hsmall]; rfl)

section Memory

lemma ofReader_bind {α β : Type} (m : Reader UInt8 Socket α) (f : α → Reader UInt8 Socket β)
    (i : Input UInt8 Socket) : ofReader (m >>= f) i = (ofReader m >>= fun a => ofReader (f a)) i := by
  cases h : m i with
  | none =>
    rw [bind_failed (ofReader_none h)]
    apply ofReader_none
    change (m i).bind _ = none
    rw [h]
    rfl
  | some result =>
    obtain ⟨a, i'⟩ := result
    rw [bind_received (ofReader_some h)]
    change ((m i).bind _).elim _ _ = _
    rw [h]
    rfl

lemma receiveBuffer_readString (h : n.toNat + 1 < 2 ^ 64) (hroom : ¬Lacks provides n)
    (i : Input UInt8 Socket) : receiveBuffer provides n i = ofReader (readString n) i := by
  rw [receiveBuffer, readString]
  split_ifs with hpos
  · have hprovides : provides (n.toNat + 1) = true := by
      by_contra hno
      exact hroom ⟨hpos, Bool.eq_false_iff.mpr hno⟩
    rw [calloc, toNat_add_one h, if_pos hprovides, ofReader_bind]
    simp only [safeReadInto_calloc]
    cases hread : readFull n.toNat i with
    | none => rw [bind_failed (bind_failed (ofReader_none hread)), bind_failed (ofReader_none hread)]
    | some result =>
      rw [bind_received (bind_received (ofReader_some hread)), bind_received (ofReader_some hread)]
      rfl
  · rfl

lemma receiveFrame_receiveRequest (husername : usernameLength.toNat + 1 < 2 ^ 64)
    (hdata : dataSize.toNat + 1 < 2 ^ 64) (hroom : ∀ size, provides size = true) :
    receiveFrame provides action usernameLength dataSize stream socket =
      ofReader receiveRequest ⟨headerBytes action usernameLength dataSize ++ stream, socket⟩ := by
  have hfield : ∀ n, ¬Lacks provides n := fun n hlacks =>
    absurd (hroom (n.toNat + 1)) (Bool.eq_false_iff.mp hlacks.2)
  obtain ⟨socket₁, socket₂, socket₃, haction, hlength, hsize⟩ :=
    read_headerBytes action usernameLength dataSize stream socket
  rw [receiveFrame, receiveInto, receiveRequest, ofReader_bind,
    bind_received (ofReader_some haction), bind_received (ofReader_some haction),
    ofReader_bind, bind_received (ofReader_some hlength), bind_received (ofReader_some hlength),
    ofReader_bind, bind_received (ofReader_some hsize), bind_received (ofReader_some hsize),
    ofReader_bind]
  apply bind_congr_received
  · exact receiveBuffer_readString husername (hfield usernameLength) _
  · intro username i
    rw [ofReader_bind]
    apply bind_congr_received
    · exact receiveBuffer_readString hdata (hfield dataSize) i
    · intro data i
      rfl

end Memory

end SystemsLab.Reservation
