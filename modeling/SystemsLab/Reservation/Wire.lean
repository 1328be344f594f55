import SystemsLab.Reservation.Protocol
import SystemsLab.Streams.Framing

namespace SystemsLab.Reservation

open CLib Streams

/-- How one call of `read` or `write` ends, unless the stream is at its end: EINTR, or a transfer
of at most `k + 1` bytes. -/
inductive SysCall where
  | interrupted
  | upTo (k : ℕ)

/-- Once `calls` is used up every call transfers all it can. `reset` says that reading past the end
of the stream is an error and not an end of file. -/
structure Socket where
  calls : List SysCall
  reset : Bool

-- The bytes that are read (`none` is -1), the rest of the stream and the calls to come.
def safeRead (reset : Bool) : List SysCall → Bytes → ℕ → Option Bytes × Bytes × List SysCall
  | calls, stream, 0 => (some [], stream, calls)
  | [], stream, count + 1 =>
    if count + 1 ≤ stream.length then (some (stream.take (count + 1)), stream.drop (count + 1), [])
    else (if reset then none else some stream, [], [])
  | .interrupted :: calls, stream, count + 1 => safeRead reset calls stream (count + 1)
  | .upTo k :: calls, stream, count + 1 =>
    let chunk := stream.take (min k count + 1)
    if chunk = [] then (if reset then none else some [], [], calls)
    else
      let (r, rest, calls) :=
        safeRead reset calls (stream.drop (min k count + 1)) (count + 1 - chunk.length)
      (r.map (chunk ++ ·), rest, calls)

def safeWrite : List SysCall → Bytes → Bytes → Bytes × List SysCall
  | calls, [], sent => (sent, calls)
  | [], buf, sent => (sent ++ buf, [])
  | .interrupted :: calls, buf, sent => safeWrite calls buf sent
  | .upTo k :: calls, buf, sent => safeWrite calls (buf.drop (k + 1)) (sent ++ buf.take (k + 1))

lemma safeRead_append (reset : Bool) (calls : List SysCall) (b rest : Bytes) :
    ∃ calls', safeRead reset calls (b ++ rest) b.length = (some b, rest, calls') := by
  induction calls generalizing b with
  | nil =>
    cases b with
    | nil => exact ⟨[], rfl⟩
    | cons x b => exact ⟨[], by simp [safeRead]⟩
  | cons call calls ih =>
    cases b with
    | nil => exact ⟨call :: calls, rfl⟩
    | cons x b =>
      cases call with
      | interrupted => exact ih (x :: b)
      | upTo k =>
        have hm : min k b.length ≤ b.length := min_le_right _ _
        have htake : (x :: b ++ rest).take (min k b.length + 1) = x :: b.take (min k b.length) := by
          rw [List.cons_append, List.take_succ_cons, List.take_append_of_le_length hm]
        have hdrop : (x :: b ++ rest).drop (min k b.length + 1) = b.drop (min k b.length) ++ rest := by
          rw [List.cons_append, List.drop_succ_cons, List.drop_append_of_le_length hm]
        have hlen : b.length + 1 - (x :: b.take (min k b.length)).length =
            (b.drop (min k b.length)).length := by
          simp only [List.length_cons, List.length_take, List.length_drop]
          omega
        obtain ⟨calls', h⟩ := ih (b.drop (min k b.length))
        refine ⟨calls', ?_⟩
        rw [List.length_cons, safeRead]
        simp only [htake, hdrop, hlen, h, reduceCtorEq, if_false, Option.map_some]
        rw [List.cons_append, List.take_append_drop]

lemma safeRead_short {reset : Bool} {calls : List SysCall} {stream b : Bytes} {count : ℕ}
    (hlt : stream.length < count) (h : (safeRead reset calls stream count).1 = some b) :
    b.length < count := by
  induction calls generalizing stream b count with
  | nil =>
    cases count with
    | zero => omega
    | succ count =>
      simp only [safeRead, if_neg (Nat.not_le.mpr hlt)] at h
      split_ifs at h
      cases h
      exact hlt
  | cons call calls ih =>
    cases count with
    | zero => omega
    | succ count =>
      cases call with
      | interrupted => exact ih hlt h
      | upTo k =>
        simp only [safeRead] at h
        split_ifs at h with hnil
        · cases h
          exact Nat.succ_pos _
        · obtain ⟨c, hc, rfl⟩ := Option.map_eq_some_iff.mp h
          have hchunk : 0 < (stream.take (min k count + 1)).length := List.length_pos_iff.mpr hnil
          have hrest : (stream.drop (min k count + 1)).length <
              count + 1 - (stream.take (min k count + 1)).length := by
            simp only [List.length_drop, List.length_take] at hchunk ⊢
            omega
          have hlen := ih hrest hc
          rw [List.length_append]
          omega

lemma safeWrite_append (calls : List SysCall) (buf sent : Bytes) :
    ∃ calls', safeWrite calls buf sent = (sent ++ buf, calls') := by
  induction calls generalizing buf sent with
  | nil =>
    cases buf with
    | nil => exact ⟨[], by simp [safeWrite]⟩
    | cons x buf => exact ⟨[], rfl⟩
  | cons call calls ih =>
    cases buf with
    | nil => exact ⟨call :: calls, by simp [safeWrite]⟩
    | cons x buf =>
      cases call with
      | interrupted => exact ih (x :: buf) sent
      | upTo k =>
        obtain ⟨calls', h⟩ := ih ((x :: buf).drop (k + 1)) (sent ++ (x :: buf).take (k + 1))
        refine ⟨calls', ?_⟩
        rw [safeWrite, h, List.append_assoc, List.take_append_drop]
        simp

-- A call of `safe_read` whose result is compared with the size that was asked for.
def readFull (count : ℕ) : Reader UInt8 Socket Bytes := fun i =>
  let (r, bytes, calls) := safeRead i.env.reset i.env.calls i.bytes count
  match r with
  | none => none
  | some b => if b.length = count then some (b, ⟨bytes, { i.env with calls }⟩) else none

def writeFull (buf : Bytes) : Streams.Writer UInt8 (List SysCall) := fun (sent, calls) =>
  safeWrite calls buf sent

lemma readFull_decodes (b : Bytes) : Decodes (readFull b.length) b b := by
  constructor
  · intro rest e
    obtain ⟨calls, h⟩ := safeRead_append e.reset e.calls b rest
    refine ⟨{ e with calls }, ?_⟩
    simp only [readFull, h, if_true]
  · intro p e hp hne
    have hlt : p.length < b.length := by
      refine lt_of_le_of_ne hp.length_le fun he => hne (hp.eq_of_length he)
    simp only [readFull]
    split
    · rfl
    · rename_i c hc
      exact if_neg (safeRead_short hlt hc).ne

lemma writeFull_writes (b : Bytes) : Writes (writeFull b) b := fun sent calls =>
  safeWrite_append calls b sent

section Numbers

variable (x : Int32) (n : UInt64)

def int32Bytes : Bytes := leBytes 4 x.toUInt32.toNat

def uint64Bytes : Bytes := leBytes 8 n.toNat

def readInt32 : Reader UInt8 Socket Int32 := do
  let b ← readFull 4
  pure (UInt32.ofNat (ofLeBytes b)).toInt32

def readUInt64 : Reader UInt8 Socket UInt64 := do
  let b ← readFull 8
  pure (UInt64.ofNat (ofLeBytes b))

lemma readInt32_decodes : Decodes readInt32 (int32Bytes x) x := by
  have h := (readFull_decodes (int32Bytes x)).map fun b => (UInt32.ofNat (ofLeBytes b)).toInt32
  have hx : (UInt32.ofNat (ofLeBytes (int32Bytes x))).toInt32 = x := by
    rw [int32Bytes, ofLeBytes_of_lt (by simpa using x.toUInt32.toNat_lt)]
    simp
  rw [hx, int32Bytes, length_leBytes] at h
  exact h

lemma readUInt64_decodes : Decodes readUInt64 (uint64Bytes n) n := by
  have h := (readFull_decodes (uint64Bytes n)).map fun b => UInt64.ofNat (ofLeBytes b)
  have hn : UInt64.ofNat (ofLeBytes (uint64Bytes n)) = n := by
    rw [uint64Bytes, ofLeBytes_of_lt (by simpa using n.toNat_lt)]
    simp
  rw [hn, uint64Bytes, length_leBytes] at h
  exact h

end Numbers

-- A buffer of `n` bytes and a NUL, or no buffer for length 0.
def readString (n : UInt64) : Reader UInt8 Socket (Option Bytes) :=
  if 0 < n then do
    let b ← readFull n.toNat
    pure (some (b ++ [0]))
  else pure none

def receiveRequest : Reader UInt8 Socket Request := do
  let action ← readInt32
  let usernameLength ← readUInt64
  let dataSize ← readUInt64
  let username ← readString usernameLength
  let data ← readString dataSize
  pure ⟨usernameLength, dataSize, action, username, data⟩

def readBuffer (n : UInt64) : Reader UInt8 Socket (Option Bytes) :=
  if 0 < n then do
    let b ← readFull n.toNat
    pure (some b)
  else pure none

def receiveResponse : Reader UInt8 Socket Response := do
  let code ← readInt32
  let dataSize ← readUInt64
  let data ← readBuffer dataSize
  pure ⟨dataSize, code, data⟩

-- The bytes of a field that is sent only if its length is not 0.
def fieldBytes (b : Option Bytes) (n : UInt64) : Bytes :=
  if 0 < n then (b.getD []).take n.toNat else []

def writeField (b : Option Bytes) (n : UInt64) : Streams.Writer UInt8 (List SysCall) :=
  if 0 < n then writeFull ((b.getD []).take n.toNat) else id

def sendRequest (r : Request) : Streams.Writer UInt8 (List SysCall) :=
  writeField r.data r.dataSize ∘ writeField r.username r.usernameLength ∘
    writeFull (uint64Bytes r.dataSize) ∘ writeFull (uint64Bytes r.usernameLength) ∘
    writeFull (int32Bytes r.action)

def sendResponse (r : Response) : Streams.Writer UInt8 (List SysCall) :=
  writeField r.data r.dataSize ∘ writeFull (uint64Bytes r.dataSize) ∘
    writeFull (int32Bytes r.code)

def requestFrame (r : Request) : Bytes :=
  int32Bytes r.action ++ (uint64Bytes r.usernameLength ++ (uint64Bytes r.dataSize ++
    (fieldBytes r.username r.usernameLength ++ fieldBytes r.data r.dataSize)))

def responseFrame (r : Response) : Bytes :=
  int32Bytes r.code ++ (uint64Bytes r.dataSize ++ fieldBytes r.data r.dataSize)

/-- A response with a buffer exactly when its size is not 0. -/
inductive Response.Proper : Response → Prop
  | empty {code : Int32} : Response.Proper ⟨0, code, none⟩
  | full {code : Int32} {b : Bytes} (hne : b ≠ []) (hlen : b.length < 2 ^ 63) :
      Response.Proper ⟨UInt64.ofNat b.length, code, some b⟩

section Fields

variable {b : Bytes} {n : UInt64}

lemma toNat_ofNat_length (h : b.length < 2 ^ 63) : (UInt64.ofNat b.length).toNat = b.length := by
  rw [UInt64.toNat_ofNat', Nat.mod_eq_of_lt (by omega)]

lemma ofNat_length_pos (hne : b ≠ []) (h : b.length < 2 ^ 63) : 0 < UInt64.ofNat b.length := by
  rw [UInt64.lt_iff_toNat_lt, toNat_ofNat_length h]
  exact List.length_pos_iff.mpr hne

lemma readString_decodes {o : Option Bytes} (h : Carries o n) :
    Decodes (readString n) (fieldBytes o n) o := by
  cases h with
  | absent => exact Decodes.pure none
  | @present b ht =>
    have hpos := ofNat_length_pos ht.ne_nil ht.length
    have hlen := toNat_ofNat_length ht.length
    have hfield : fieldBytes (some (b ++ [0])) (UInt64.ofNat b.length) = b := by
      rw [fieldBytes, if_pos hpos, hlen, Option.getD_some, List.take_left]
    rw [hfield, readString, if_pos hpos, hlen]
    exact (readFull_decodes b).map fun b => some (b ++ [0])

lemma readBuffer_decodes {r : Response} (h : r.Proper) :
    Decodes (readBuffer r.dataSize) (fieldBytes r.data r.dataSize) r.data := by
  cases h with
  | empty => exact Decodes.pure none
  | @full code b hne hlen =>
    have hpos := ofNat_length_pos hne hlen
    have hfield : fieldBytes (some b) (UInt64.ofNat b.length) = b := by
      rw [fieldBytes, if_pos hpos, toNat_ofNat_length hlen, Option.getD_some, List.take_length]
    rw [hfield, readBuffer, if_pos hpos, toNat_ofNat_length hlen]
    exact (readFull_decodes b).map fun b => some b

lemma writeField_writes (o : Option Bytes) (n : UInt64) :
    Writes (writeField o n) (fieldBytes o n) := by
  rw [writeField, fieldBytes]
  split_ifs
  · exact writeFull_writes _
  · exact Writes.id

end Fields

lemma receiveRequest_decodes {r : Request} (h : r.Proper) :
    Decodes receiveRequest (requestFrame r) r := by
  have hlast := (readString_decodes h.data).map fun data =>
    (⟨r.usernameLength, r.dataSize, r.action, r.username, data⟩ : Request)
  exact (readInt32_decodes r.action).bind <| (readUInt64_decodes r.usernameLength).bind <|
    (readUInt64_decodes r.dataSize).bind <| (readString_decodes h.username).bind hlast

lemma receiveResponse_decodes {r : Response} (h : r.Proper) :
    Decodes receiveResponse (responseFrame r) r := by
  have hlast := (readBuffer_decodes h).map fun data => (⟨r.dataSize, r.code, data⟩ : Response)
  exact (readInt32_decodes r.code).bind <| (readUInt64_decodes r.dataSize).bind hlast

lemma sendRequest_writes (r : Request) : Writes (sendRequest r) (requestFrame r) := by
  have h := ((((writeFull_writes (int32Bytes r.action)).comp
    (writeFull_writes (uint64Bytes r.usernameLength))).comp
    (writeFull_writes (uint64Bytes r.dataSize))).comp
    (writeField_writes r.username r.usernameLength)).comp (writeField_writes r.data r.dataSize)
  simp only [List.append_assoc] at h
  exact h

lemma sendResponse_writes (r : Response) : Writes (sendResponse r) (responseFrame r) := by
  have h := ((writeFull_writes (int32Bytes r.code)).comp
    (writeFull_writes (uint64Bytes r.dataSize))).comp (writeField_writes r.data r.dataSize)
  simp only [List.append_assoc] at h
  exact h

lemma readFull_nil {count : ℕ} (h : 0 < count) (e : Socket) : readFull count ⟨[], e⟩ = none := by
  have hd := (readFull_decodes (List.replicate count 0)).cut [] e List.nil_prefix
  rw [List.length_replicate] at hd
  refine hd fun he => ?_
  have hl := congrArg List.length he
  rw [List.length_replicate] at hl
  exact h.ne hl

lemma receiveRequest_nil (e : Socket) : receiveRequest ⟨[], e⟩ = none := by
  change ((readFull 4 ⟨[], e⟩).bind _).bind _ = none
  rw [readFull_nil (by omega)]
  rfl

lemma receiveResponse_nil (e : Socket) : receiveResponse ⟨[], e⟩ = none := by
  change ((readFull 4 ⟨[], e⟩).bind _).bind _ = none
  rw [readFull_nil (by omega)]
  rfl

def sendAll {α : Type} (send : α → Streams.Writer UInt8 (List SysCall)) (as : List α)
    (calls : List SysCall) : Bytes :=
  (as.foldl (fun o a => send a o) ([], calls)).1

lemma sendAll_eq {α : Type} {send : α → Streams.Writer UInt8 (List SysCall)} {frame : α → Bytes}
    (h : ∀ a, Writes (send a) (frame a)) (as : List α) (calls : List SysCall) :
    sendAll send as calls = as.flatMap frame := by
  have hw : ∀ a ∈ as, Writes (send a) (frame a) := fun a _ => h a
  obtain ⟨calls', he⟩ := Writes.foldl hw [] calls
  change as.foldl (fun o a => send a o) ([], calls) = _ at he
  rw [sendAll, he]
  rfl

theorem framing :
    (∀ (requests : List Request), (∀ r ∈ requests, r.Proper) →
      ∀ (writes : List SysCall) (socket : Socket) (n k : ℕ),
        attempts receiveRequest k ⟨(sendAll sendRequest requests writes).take n, socket⟩ =
          ((arrived requestFrame n requests).map some ++ [none]).take k) ∧
    ∀ (responses : List Response), (∀ r ∈ responses, r.Proper) →
      ∀ (writes : List SysCall) (socket : Socket) (n k : ℕ),
        attempts receiveResponse k ⟨(sendAll sendResponse responses writes).take n, socket⟩ =
          ((arrived responseFrame n responses).map some ++ [none]).take k := by
  constructor
  · intro requests h writes socket n k
    rw [sendAll_eq sendRequest_writes]
    exact attempts_take (fun r hr => receiveRequest_decodes (h r hr)) receiveRequest_nil n k socket
  · intro responses h writes socket n k
    rw [sendAll_eq sendResponse_writes]
    exact attempts_take (fun r hr => receiveResponse_decodes (h r hr)) receiveResponse_nil n k socket

theorem framing_cut :
    attempts receiveRequest 5 ⟨(sendAll sendRequest
        [⟨1, 0, Action.logout.code, some [97, 0], none⟩, ⟨1, 0, Action.logout.code, some [97, 0], none⟩]
        [.upTo 2, .interrupted]).take 41, ⟨[.interrupted, .upTo 0], false⟩⟩ =
      [some ⟨1, 0, Action.logout.code, some [97, 0], none⟩, none] := by
  have hr : Request.Proper ⟨1, 0, Action.logout.code, some [97, 0], none⟩ :=
    ⟨.present (b := [97]) ⟨by decide, by decide, by decide⟩, .absent⟩
  rw [framing.1 _ (by simpa using hr)]
  rfl

end SystemsLab.Reservation
