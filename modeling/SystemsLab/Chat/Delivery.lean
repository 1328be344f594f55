import SystemsLab.Chat.Server
import SystemsLab.Streams.Cutting
import Mathlib.Data.List.GetD
import Mathlib.Tactic.Ring

namespace SystemsLab.Chat

open CLib Streams

/-- `handle_server_response`, where `buffer` is what was in the memory of `msg` before: the message
that it prints, if it is of one of the types. -/
def handleServerResponse (buffer bytes : Bytes) : Option Bytes :=
  let msg := bytes ++ buffer.drop bytes.length
  if (typeOf msg).isSome then some msg else none

/-- What a client has processed after its reads; `buffers` is what is in its memory at each. -/
def processed (buffers : ℕ → Bytes) : List Bytes → List Bytes
  | [] => []
  | bytes :: responses =>
    (handleServerResponse (buffers 0) bytes).toList ++ processed (fun i => buffers (i + 1)) responses

def relay (server : Server) (senderFd : ℕ) : List Bytes → List Effect
  | [] => []
  | bytes :: pieces =>
    match server.fds.findIdx? (·.fd == senderFd) with
    | none => []
    | some i =>
      match handleClientData server i false (.data bytes) with
      | .error _ => []
      | .ok (server, effects) => effects ++ relay server senderFd pieces

def writtenTo (fd : ℕ) (effects : List Effect) : List Bytes :=
  effects.filterMap fun
    | .write fd' data => if fd' = fd then some data else none
    | _ => none

/-- Reads of the server from the stream of a client: to its end, or to a `USER_LEFT`, after which
the rest stays unread. -/
inductive ServerReads : Bytes → List Bytes → Bytes → Prop
  | done : ServerReads [] [] []
  | read {bytes rest unread : Bytes} {pieces : List Bytes} (hne : bytes ≠ [])
    (hle : bytes.length ≤ messageSize) (hstays : typeOf (cleared bytes) ≠ some .userLeft)
    (h : ServerReads rest pieces unread) : ServerReads (bytes ++ rest) (bytes :: pieces) unread
  | leave {bytes unread : Bytes} (hle : bytes.length ≤ messageSize)
    (hleaves : typeOf (cleared bytes) = some .userLeft) : ServerReads (bytes ++ unread) [bytes] unread

def IsMessage (msg : Bytes) : Prop := msg.length = messageSize ∧ typeOf msg ≠ none

/-- Messages that a client may write: `USER_LEFT` is the last one. -/
def Writes (messages : List Bytes) : Prop :=
  (∀ msg ∈ messages, IsMessage msg) ∧ ∀ msg ∈ messages.dropLast, typeOf msg ≠ some .userLeft

def WholeReads (pieces : List Bytes) (unread : Bytes) : Prop :=
  (∀ b ∈ unread, b = 0) ∧ ∀ bytes ∈ pieces, bytes.length = messageSize ∨
    typeOf (cleared bytes) = some .userLeft ∧ bytes.length + unread.length = messageSize

structure Connected (server : Server) (senderFd fd : ℕ) : Prop where
  ne : senderFd ≠ fd
  nodup : (server.fds.map Pollfd.fd).Nodup
  sender : senderFd ∈ (server.fds.map Pollfd.fd).tail
  receiver : fd ∈ (server.fds.map Pollfd.fd).tail

variable {bytes unread stream msg : Bytes} {pieces messages responses : List Bytes} {server : Server}
  {senderFd fd i : ℕ} {fds : List Pollfd}

section Types

def nonzero (b : UInt8) : Bool := b != 0

lemma nonzero_eq_true {b : UInt8} : nonzero b = true ↔ b ≠ 0 := bne_iff_ne

lemma ofLeBytes_zeros (n : ℕ) : ofLeBytes (List.replicate n 0) = 0 := by
  induction n with
  | zero => rfl
  | succ n ih => simp [List.replicate_succ, ofLeBytes, ih]

lemma typeOf_zeros (n : ℕ) : typeOf (List.replicate n 0) = some .newUser := by
  simp [typeOf, List.take_replicate, ofLeBytes_zeros]

lemma length_cleared (h : bytes.length ≤ messageSize) : (cleared bytes).length = messageSize := by
  simp only [cleared, List.length_append, List.length_replicate]
  omega

lemma cleared_full (h : bytes.length = messageSize) : cleared bytes = bytes := by
  simp [cleared, h]

lemma cleared_zeros (h : ∀ b ∈ bytes, b = 0) :
    cleared bytes = List.replicate (bytes.length + (messageSize - bytes.length)) 0 := by
  rw [cleared, List.eq_replicate_of_mem h, List.length_replicate, List.replicate_append_replicate]

lemma exists_ne_zero (h : typeOf (cleared bytes) ≠ some .newUser) : 0 < bytes.countP nonzero := by
  rw [List.countP_pos_iff]
  by_contra hnone
  apply h
  rw [cleared_zeros, typeOf_zeros]
  intro b hb
  by_contra hne
  exact hnone ⟨b, hb, nonzero_eq_true.mpr hne⟩

lemma countP_cleared (bytes : Bytes) : (cleared bytes).countP nonzero = bytes.countP nonzero := by
  simp [cleared, List.countP_append, List.countP_replicate, nonzero]

end Types

section Relay

lemma writtenTo_append (fd : ℕ) (effects effects' : List Effect) :
    writtenTo fd (effects ++ effects') = writtenTo fd effects ++ writtenTo fd effects' :=
  List.filterMap_append

lemma writtenTo_zipIdx (hnodup : (fds.map Pollfd.fd).Nodup) (k : ℕ)
    (hi : ∀ j, fds[j]?.map Pollfd.fd = some fd → k + j ≠ 0 ∧ k + j ≠ i) :
    writtenTo fd ((fds.zipIdx k).filterMap fun (entry, j) =>
      if j = 0 ∨ j = i then none else some (.write entry.fd msg)) =
        if fd ∈ fds.map Pollfd.fd then [msg] else [] := by
  induction fds generalizing k with
  | nil => rfl
  | cons entry fds ih =>
    rw [List.map_cons, List.nodup_cons] at hnodup
    have hrest := ih hnodup.2 (k + 1) fun j hj => by
      have hk := hi (j + 1) (by simpa using hj)
      omega
    rw [List.zipIdx_cons, List.filterMap_cons]
    by_cases hfd : entry.fd = fd
    · have hk := hi 0 (by simp [hfd])
      have hnot : fd ∉ fds.map Pollfd.fd := hfd ▸ hnodup.1
      rw [if_neg hnot] at hrest
      simp only [Nat.add_zero] at hk
      simp only [hk.1, hk.2, or_self, if_false]
      rw [writtenTo, List.filterMap_cons, ← writtenTo, hrest]
      simp [hfd]
    · have hskip : ∀ effects, writtenTo fd (.write entry.fd msg :: effects) = writtenTo fd effects := by
        simp [writtenTo, hfd]
      have hmem : fd ∈ (entry :: fds).map Pollfd.fd ↔ fd ∈ fds.map Pollfd.fd := by
        simp [Ne.symm hfd]
      simp only [hmem]
      by_cases hk : k = 0 ∨ k = i
      · simpa only [hk, if_true] using hrest
      · simpa only [hk, if_false, hskip] using hrest

lemma writtenTo_broadcast (h : Connected server senderFd fd)
    (hi : server.fds.findIdx? (·.fd == senderFd) = some i) :
    writtenTo fd (broadcastMessage msg i server.fds) = [msg] := by
  obtain ⟨hlt, hsender, -⟩ := List.findIdx?_eq_some_iff_getElem.mp hi
  have hmem : fd ∈ server.fds.map Pollfd.fd := List.mem_of_mem_tail h.receiver
  rw [broadcastMessage, writtenTo_zipIdx h.nodup 0, if_pos hmem]
  intro j hj
  have hnodup := h.nodup
  have hreceiver := h.receiver
  constructor
  · intro hzero
    obtain rfl : j = 0 := by omega
    cases hfds : server.fds with
    | nil => simp [hfds] at hj
    | cons entry fds =>
      simp only [hfds, List.map_cons, List.nodup_cons, List.tail_cons] at hnodup hreceiver
      have hfd : entry.fd = fd := by simpa [hfds] using hj
      exact hnodup.1 (hfd ▸ hreceiver)
  · intro hzero
    obtain rfl : j = i := by omega
    rw [List.getElem?_eq_getElem hlt] at hj
    exact h.ne ((beq_iff_eq.mp hsender).symm.trans (Option.some.inj hj))

lemma Connected.findIdx (h : Connected server senderFd fd) :
    ∃ i, server.fds.findIdx? (·.fd == senderFd) = some i := by
  obtain ⟨entry, hentry, hfd⟩ := List.mem_map.mp (List.mem_of_mem_tail h.sender)
  rw [← Option.isSome_iff_exists, List.findIdx?_isSome, List.any_eq_true]
  exact ⟨entry, hentry, beq_iff_eq.mpr hfd⟩

lemma writtenTo_print (line : Line) : writtenTo fd [.print line] = [] := rfl

lemma writtenTo_disconnection (server : Server) (i : ℕ) (username : Bytes) :
    writtenTo fd (handleDisconnection server i username).2 = [] := by
  simp only [handleDisconnection, writtenTo_append, writtenTo_print, List.append_nil]
  cases server.fds[i]? <;> rfl

lemma handleClientData_writes (h : Connected server senderFd fd)
    (hi : server.fds.findIdx? (·.fd == senderFd) = some i) (bytes : Bytes) :
    ∃ server' effects, handleClientData server i false (.data bytes) = .ok (server', effects) ∧
      writtenTo fd effects = (if (typeOf (cleared bytes)).isSome then [cleared bytes] else []) ∧
      (typeOf (cleared bytes) ≠ some .userLeft → Connected server' senderFd fd) := by
  have hwrites : writtenTo fd (broadcastMessage (cleared bytes) i server.fds) = [cleared bytes] :=
    writtenTo_broadcast h hi
  simp only [handleClientData]
  cases htype : typeOf (cleared bytes) with
  | none => exact ⟨_, _, rfl, rfl, fun _ => h⟩
  | some type =>
    cases type with
    | newUser =>
      refine ⟨_, _, rfl, ?_, fun _ => ⟨h.ne, h.nodup, h.sender, h.receiver⟩⟩
      simp [writtenTo_append, hwrites, writtenTo_print]
    | userLeft =>
      refine ⟨_, _, rfl, ?_, fun hne => (hne rfl).elim⟩
      simp [writtenTo_append, hwrites, writtenTo_disconnection]
    | userMessage =>
      refine ⟨_, _, rfl, ?_, fun _ => h⟩
      simp [writtenTo_append, hwrites, writtenTo_print]

lemma writtenTo_relay (h : Connected server senderFd fd) (hreads : ServerReads stream pieces unread) :
    writtenTo fd (relay server senderFd pieces) =
      (pieces.filter fun bytes => (typeOf (cleared bytes)).isSome).map cleared := by
  induction hreads generalizing server with
  | done => rfl
  | @read bytes _ _ pieces _ _ hstays _ ih =>
    obtain ⟨i, hi⟩ := h.findIdx
    obtain ⟨server', effects, hok, hwrites, hconnected⟩ := handleClientData_writes h hi bytes
    rw [relay, hi]
    simp only [hok, writtenTo_append, hwrites, ih (hconnected hstays), List.filter_cons]
    split_ifs <;> rfl
  | @leave bytes _ _ hleaves =>
    obtain ⟨i, hi⟩ := h.findIdx
    obtain ⟨server', effects, hok, hwrites, -⟩ := handleClientData_writes h hi bytes
    rw [relay, hi]
    simp only [hok, relay, List.append_nil, hwrites, hleaves, List.filter_cons]
    rfl

end Relay

section WholeReads

lemma Writes.tail (h : Writes (msg :: messages)) : Writes messages := by
  refine ⟨fun m hm => h.1 m (List.mem_cons_of_mem msg hm), fun m hm => ?_⟩
  apply h.2
  cases messages with
  | nil => cases hm
  | cons next messages => exact List.mem_cons_of_mem msg hm

lemma Writes.eq_nil (h : Writes (msg :: messages)) (hleft : typeOf msg = some .userLeft) :
    messages = [] := by
  cases messages with
  | nil => rfl
  | cons next messages => exact (h.2 msg List.mem_cons_self hleft).elim

lemma cleared_append_zeros (hunread : ∀ b ∈ unread, b = 0)
    (hlen : bytes.length + unread.length = messageSize) : cleared bytes = bytes ++ unread := by
  have hsub : messageSize - bytes.length = unread.length := by omega
  rw [cleared, hsub, ← List.eq_replicate_of_mem hunread]

lemma ServerReads.cleared_eq (h : ServerReads stream pieces unread) (hwrites : Writes messages)
    (hstream : stream = messages.flatten) (hwhole : WholeReads pieces unread) :
    pieces.map cleared = messages := by
  have hlength : ∀ {ms : List Bytes}, Writes ms → ∀ m ∈ ms, m.length = messageSize :=
    fun hms m hm => (hms.1 m hm).1
  induction h generalizing messages with
  | done =>
    have hlen := length_flatten_eq (hlength hwrites)
    rw [← hstream, List.length_nil] at hlen
    have hzero : messages.length = 0 := by
      rcases Nat.mul_eq_zero.mp hlen.symm with h0 | h0
      · cases h0
      · exact h0
    rw [List.length_eq_zero_iff.mp hzero]
    rfl
  | @read bytes rest unread pieces hne _ hstays _ ih =>
    cases messages with
    | nil => exact (hne (List.append_eq_nil_iff.mp hstream).1).elim
    | cons m messages =>
      have hfull : bytes.length = messageSize :=
        (hwhole.2 bytes List.mem_cons_self).resolve_right fun hleft => hstays hleft.1
      have hm := hlength hwrites m List.mem_cons_self
      obtain ⟨rfl, hrest⟩ := List.append_inj hstream (hfull.trans hm.symm)
      rw [List.map_cons, cleared_full hfull, ih hwrites.tail hrest
        ⟨hwhole.1, fun piece hpiece => hwhole.2 piece (List.mem_cons_of_mem bytes hpiece)⟩]
  | @leave bytes unread _ hleaves =>
    cases messages with
    | nil =>
      have hnil := (List.append_eq_nil_iff.mp hstream).1
      rw [hnil] at hleaves
      cases (typeOf_zeros messageSize).symm.trans hleaves
    | cons m messages =>
      have hm := hlength hwrites m List.mem_cons_self
      rw [List.flatten_cons] at hstream
      rcases hwhole.2 bytes List.mem_cons_self with hfull | ⟨-, hsum⟩
      · obtain ⟨rfl, -⟩ := List.append_inj hstream (hfull.trans hm.symm)
        rw [cleared_full hfull] at hleaves
        rw [hwrites.eq_nil hleaves, List.map_singleton, cleared_full hfull]
      · have hlen := congrArg List.length hstream
        rw [List.length_append, List.length_append, hsum, hm] at hlen
        have hnil : messages.flatten = [] := List.length_eq_zero_iff.mp (by omega)
        have hrest : messages = [] := by
          cases messages with
          | nil => rfl
          | cons next messages =>
            have hnext := hlength hwrites next (List.mem_cons_of_mem m List.mem_cons_self)
            rw [List.flatten_cons, List.append_eq_nil_iff] at hnil
            rw [hnil.1] at hnext
            cases hnext
        rw [hrest, List.flatten_nil, List.append_nil] at hstream
        rw [hrest, List.map_singleton, cleared_append_zeros hwhole.1 hsum, hstream]

lemma ServerReads.length_le (h : ServerReads stream pieces unread) :
    ∀ piece ∈ pieces, piece.length ≤ messageSize := by
  induction h with
  | done => exact nofun
  | read _ hle _ _ ih =>
    intro piece hpiece
    rcases List.mem_cons.mp hpiece with rfl | hpiece
    · exact hle
    · exact ih piece hpiece
  | leave hle _ =>
    intro piece hpiece
    rw [List.mem_singleton.mp hpiece]
    exact hle

lemma ServerReads.flatten (h : ServerReads stream pieces unread) :
    pieces.flatten ++ unread = stream := by
  induction h with
  | done => rfl
  | read _ _ _ _ ih => rw [List.flatten_cons, List.append_assoc, ih]
  | leave _ _ => simp

lemma ServerReads.ends (h : ServerReads stream pieces unread) :
    unread = [] ∨ ∃ before bytes, pieces = before ++ [bytes] ∧
      typeOf (cleared bytes) = some .userLeft := by
  induction h with
  | done => exact Or.inl rfl
  | @read bytes _ _ _ _ _ _ _ ih =>
    rcases ih with hnil | ⟨before, last, rfl, hleft⟩
    · exact Or.inl hnil
    · exact Or.inr ⟨bytes :: before, last, rfl, hleft⟩
  | @leave bytes _ _ hleft => exact Or.inr ⟨[], bytes, rfl, hleft⟩

lemma eq_zeros_of_repeats {l : Bytes} {d : ℕ} (hd : 0 < d)
    (h : ∀ i, l.getD i 0 = l.getD (d + i) 0) : ∀ b ∈ l, b = 0 := by
  have hmany : ∀ n i, l.getD i 0 = l.getD (n * d + i) 0 := by
    intro n
    induction n with
    | zero => simp
    | succ n ih =>
      intro i
      rw [h i, ih (d + i)]
      congr 1
      ring
  intro b hb
  obtain ⟨i, hi, rfl⟩ := List.mem_iff_getElem.mp hb
  have hfar := hmany l.length i
  have hle : l.length ≤ l.length * d + i := by
    have hmul := Nat.le_mul_of_pos_right l.length hd
    omega
  rw [List.getD_eq_default _ _ hle, List.getD_eq_getElem _ _ hi] at hfar
  exact hfar

lemma getD_append_zeros {l zeros : Bytes} (hzeros : ∀ b ∈ zeros, b = 0) (i : ℕ) :
    (l ++ zeros).getD i 0 = l.getD i 0 := by
  rcases lt_or_ge i l.length with hlt | hge
  · rw [List.getD_append _ _ _ _ hlt]
  · rw [List.getD_append_right _ _ _ _ hge, List.getD_eq_default _ _ hge, List.getD_eq_getElem?_getD]
    cases hget : zeros[i - l.length]? with
    | none => rfl
    | some b => exact hzeros b (List.mem_of_getElem? hget)

lemma left_aligned {before : Bytes} (hleft : typeOf (cleared bytes) = some .userLeft)
    (hunread : ∀ b ∈ unread, b = 0) (heq : bytes ++ unread = before ++ cleared bytes) :
    before = [] := by
  by_contra hne
  have hzeros : ∀ b ∈ cleared bytes, b = 0 := by
    apply eq_zeros_of_repeats (List.length_pos_iff.mpr hne)
    intro i
    have hsame : ∀ j, (bytes ++ unread).getD j 0 = (cleared bytes).getD j 0 := by
      intro j
      rw [getD_append_zeros hunread, cleared, getD_append_zeros fun b hb => List.eq_of_mem_replicate hb]
    rw [← hsame (before.length + i), heq, List.getD_append_right _ _ _ _ (Nat.le_add_right _ _),
      Nat.add_sub_cancel_left]
  rw [List.eq_replicate_of_mem hzeros, typeOf_zeros] at hleft
  cases hleft

lemma ServerReads.whole (h : ServerReads stream pieces unread)
    (hmessages : ∀ msg ∈ messages, msg.length = messageSize) (hstream : stream = messages.flatten)
    (hcleared : pieces.map cleared = messages) (hunread : ∀ b ∈ unread, b = 0) :
    WholeReads pieces unread := by
  have hle := h.length_le
  have hflatten := h.flatten
  have hlen := length_flatten_eq hmessages
  have hcount : messages.length = pieces.length := by rw [← hcleared, List.length_map]
  rw [← hstream, ← hflatten, List.length_append, hcount] at hlen
  refine ⟨hunread, ?_⟩
  rcases h.ends with hnil | ⟨before, bytes, rfl, hleft⟩
  · rw [hnil, List.length_nil, Nat.add_zero] at hlen
    exact fun piece hpiece => Or.inl (length_eq_of_flatten hle hlen.ge piece hpiece)
  · have hbefore : ∀ piece ∈ before, piece.length ≤ messageSize := fun piece hpiece =>
      hle piece (List.mem_append_left _ hpiece)
    have hbound := length_flatten_le hbefore
    have hsplit : before.flatten ++ (bytes ++ unread) =
        (before.map cleared).flatten ++ cleared bytes := by
      rw [← List.append_assoc, ← List.flatten_concat, hflatten, hstream, ← hcleared]
      simp
    have hlong : (before.map cleared).flatten.length = messageSize * before.length := by
      rw [length_flatten_eq (n := messageSize), List.length_map]
      intro full hfull
      obtain ⟨piece, hpiece, rfl⟩ := List.mem_map.mp hfull
      exact length_cleared (hbefore piece hpiece)
    obtain ⟨rest, hrest⟩ : before.flatten <+: (before.map cleared).flatten := by
      apply List.prefix_of_prefix_length_le (List.prefix_append _ (bytes ++ unread))
      · rw [hsplit]
        exact List.prefix_append _ _
      · omega
    rw [← hrest, List.append_assoc, List.append_cancel_left_eq] at hsplit
    have hnil := left_aligned hleft hunread hsplit
    rw [hnil, List.append_nil] at hrest
    rw [hnil, List.nil_append] at hsplit
    intro piece hpiece
    rcases List.mem_append.mp hpiece with hpiece | hpiece
    · exact Or.inl (length_eq_of_flatten hbefore (by rw [hrest, hlong]) piece hpiece)
    · obtain rfl := List.mem_singleton.mp hpiece
      refine Or.inr ⟨hleft, ?_⟩
      rw [← List.length_append, hsplit]
      exact length_cleared (hle _ (List.mem_append_right _ List.mem_cons_self))

end WholeReads

section Responses

variable {buffers : ℕ → Bytes} {buffer : Bytes}

def seen (bytes : Bytes) : Bool := (typeOf (cleared bytes)).isSome

lemma processed_const (buffer : Bytes) (responses : List Bytes) :
    processed (fun _ => buffer) responses = responses.filterMap (handleServerResponse buffer) := by
  induction responses with
  | nil => rfl
  | cons bytes responses ih =>
    rw [processed, ih, List.filterMap_cons]
    cases handleServerResponse buffer bytes <;> rfl

lemma processed_full (hbuffers : ∀ i, (buffers i).length = messageSize)
    (h : ∀ bytes ∈ responses, bytes.length = messageSize) :
    processed buffers responses = responses.filter seen := by
  induction responses generalizing buffers with
  | nil => rfl
  | cons bytes responses ih =>
    have hfull := h bytes List.mem_cons_self
    have hdrop : (buffers 0).drop bytes.length = [] := by
      rw [List.drop_eq_nil_iff, hbuffers 0, hfull]
    have hrest := ih (fun i => hbuffers (i + 1)) fun b hb => h b (List.mem_cons_of_mem bytes hb)
    rw [processed, hrest, handleServerResponse, hdrop, List.append_nil, List.filter_cons, seen,
      cleared_full hfull]
    split_ifs <;> rfl

def marked : Bytes := List.replicate (messageSize - 1) 0 ++ [1]

def zeros : Bytes := List.replicate messageSize 0

lemma length_marked : marked.length = messageSize := by
  rw [marked, List.length_append, List.length_replicate]
  rfl

lemma length_zeros : zeros.length = messageSize := List.length_replicate

lemma response_zeros (bytes : Bytes) :
    handleServerResponse zeros bytes = if seen bytes then some (cleared bytes) else none := by
  rw [handleServerResponse, zeros, List.drop_replicate]
  rfl

lemma typeOf_append {front : Bytes} (h : 4 ≤ front.length) (rest : Bytes) :
    typeOf (front ++ rest) = typeOf front := by
  rw [typeOf, List.take_append_of_le_length h, typeOf]

lemma response_marked (h : bytes.length < messageSize) : ∃ front,
    cleared bytes = front ++ [0] ∧
      handleServerResponse marked bytes = if seen bytes then some (front ++ [1]) else none := by
  have hle : bytes.length ≤ messageSize - 1 := by omega
  refine ⟨bytes ++ List.replicate (messageSize - 1 - bytes.length) 0, ?_, ?_⟩
  · have hsub : messageSize - bytes.length = messageSize - 1 - bytes.length + 1 := by omega
    rw [cleared, hsub, List.replicate_succ', List.append_assoc]
  · have hdrop : marked.drop bytes.length =
        List.replicate (messageSize - 1 - bytes.length) 0 ++ [1] := by
      rw [marked, List.drop_append_of_le_length (by simpa using hle), List.drop_replicate]
    have hfront : 4 ≤ (bytes ++ List.replicate (messageSize - 1 - bytes.length) 0).length := by
      have hsize : 4 ≤ messageSize - 1 := by decide
      rw [List.length_append, List.length_replicate]
      omega
    have hsub : messageSize - bytes.length = messageSize - 1 - bytes.length + 1 := by omega
    rw [handleServerResponse, hdrop, seen, cleared, hsub, List.replicate_succ', ← List.append_assoc,
      ← List.append_assoc, typeOf_append hfront, typeOf_append hfront]

lemma full_of_seen (hle : ∀ bytes ∈ responses, bytes.length ≤ messageSize)
    (h : responses.filterMap (handleServerResponse zeros) =
      responses.filterMap (handleServerResponse marked)) :
    ∀ bytes ∈ responses, seen bytes = true → bytes.length = messageSize := by
  induction responses with
  | nil => exact nofun
  | cons bytes responses ih =>
    have hrest := fun b hb => hle b (List.mem_cons_of_mem bytes hb)
    rcases (hle bytes List.mem_cons_self).lt_or_eq with hlt | hfull
    · obtain ⟨front, hcleared, hmarked⟩ := response_marked hlt
      rw [List.filterMap_cons, List.filterMap_cons, response_zeros, hmarked] at h
      cases hseen : seen bytes with
      | true =>
        simp only [hseen, if_true, List.cons.injEq, hcleared] at h
        cases List.append_cancel_left h.1
      | false =>
        simp only [hseen, Bool.false_eq_true, if_false] at h
        intro b hb hb'
        rcases List.mem_cons.mp hb with rfl | hb
        · cases hseen.symm.trans hb'
        · exact ih hrest h b hb hb'
    · have hsame : handleServerResponse marked bytes = handleServerResponse zeros bytes := by
        have hdrop : ∀ buffer : Bytes, buffer.length = messageSize → buffer.drop bytes.length = [] := by
          intro buffer hbuffer
          rw [List.drop_eq_nil_iff, hbuffer, hfull]
        rw [handleServerResponse, handleServerResponse, hdrop marked length_marked,
          hdrop zeros length_zeros]
      rw [List.filterMap_cons, List.filterMap_cons, hsame] at h
      have htail : responses.filterMap (handleServerResponse zeros) =
          responses.filterMap (handleServerResponse marked) := by
        cases hresponse : handleServerResponse zeros bytes with
        | none => simpa only [hresponse] using h
        | some m =>
          simp only [hresponse, List.cons.injEq, true_and] at h
          exact h
      intro b hb hb'
      rcases List.mem_cons.mp hb with rfl | hb
      · exact hfull
      · exact ih hrest htail b hb hb'

lemma filterMap_zeros (responses : List Bytes) :
    responses.filterMap (handleServerResponse zeros) = (responses.filter seen).map cleared := by
  induction responses with
  | nil => rfl
  | cons bytes responses ih =>
    rw [List.filterMap_cons, response_zeros, List.filter_cons, ih]
    split_ifs <;> rfl

lemma countP_unseen_eq_zero {l : List Bytes}
    (h : (l.filter (!seen ·)).flatten.countP nonzero = 0) : ∀ bytes ∈ l, seen bytes = true := by
  intro bytes hmem
  by_contra hunseen
  have hunseen' : seen bytes = false := by simpa using hunseen
  have htype : typeOf (cleared bytes) ≠ some .newUser := by
    intro htype
    rw [seen, htype] at hunseen'
    cases hunseen'
  have hpos := exists_ne_zero htype
  rw [List.countP_eq_zero] at h
  obtain ⟨b, hb, hne⟩ := List.countP_pos_iff.mp hpos
  refine h b (List.mem_flatten.mpr ⟨bytes, ?_, hb⟩) hne
  rw [List.mem_filter]
  exact ⟨hmem, by simp [hunseen']⟩

end Responses

section Delivery

variable (h : Connected server senderFd fd) (hwrites : Writes messages)
  (hreads : ServerReads messages.flatten pieces unread)
  (hcut : Cut messageSize (writtenTo fd (relay server senderFd pieces)).flatten responses)

include h hreads hcut hwrites

lemma delivered (hserver : WholeReads pieces unread)
    (hclient : ∀ bytes ∈ responses, bytes.length = messageSize) {buffers : ℕ → Bytes}
    (hbuffers : ∀ i, (buffers i).length = messageSize) : processed buffers responses = messages := by
  have hcleared := hreads.cleared_eq hwrites rfl hserver
  have hpieces : pieces.filter (fun bytes => (typeOf (cleared bytes)).isSome) = pieces := by
    rw [List.filter_eq_self]
    intro bytes hbytes
    have hmsg := hwrites.1 (cleared bytes) (hcleared ▸ List.mem_map_of_mem hbytes)
    exact Option.isSome_iff_ne_none.mpr hmsg.2
  have hresponses : responses = messages := by
    apply pieces_unique (by decide : 0 < messageSize) hclient fun msg hmsg => (hwrites.1 msg hmsg).1
    rw [hcut.flatten, writtenTo_relay h hreads, hpieces, hcleared]
  rw [processed_full hbuffers hclient, List.filter_eq_self.mpr, hresponses]
  intro bytes hbytes
  have hmsg := hwrites.1 bytes (hresponses ▸ hbytes)
  rw [seen, cleared_full (hclient bytes hbytes)]
  exact Option.isSome_iff_ne_none.mpr hmsg.2

/-- A client that processes the messages whatever was in its memory, has read them whole, and so
has the server: otherwise some byte that is not zero is missing. -/
lemma whole_of_delivered
    (hprocessed : ∀ buffers : ℕ → Bytes, (∀ i, (buffers i).length = messageSize) →
      processed buffers responses = messages) :
    WholeReads pieces unread ∧ ∀ bytes ∈ responses, bytes.length = messageSize := by
  have hzeros := hprocessed (fun _ => zeros) fun _ => length_zeros
  have hmarked := hprocessed (fun _ => marked) fun _ => length_marked
  rw [processed_const] at hzeros hmarked
  have hfull := full_of_seen hcut.length_le (hzeros.trans hmarked.symm)
  have hseen : responses.filter seen = messages := by
    rw [← hzeros, filterMap_zeros]
    conv_lhs => rw [← List.map_id (responses.filter seen)]
    apply List.map_congr_left
    intro bytes hbytes
    rw [List.mem_filter] at hbytes
    exact (cleared_full (hfull bytes hbytes.1 hbytes.2)).symm
  -- the bytes that are not zero, from the sender to the other client
  have hsplit : ∀ l : List Bytes, (l.filter seen).flatten.countP nonzero +
      (l.filter (!seen ·)).flatten.countP nonzero = l.flatten.countP nonzero :=
    countP_filter_add nonzero seen
  have hcount := hsplit responses
  have hwritten := hcut.flatten
  rw [writtenTo_relay h hreads] at hwritten
  have hcleared : ∀ l : List Bytes,
      (l.map cleared).flatten.countP nonzero = l.flatten.countP nonzero := by
    intro l
    induction l with
    | nil => rfl
    | cons bytes l ih =>
      rw [List.map_cons, List.flatten_cons, List.flatten_cons, List.countP_append, List.countP_append, ih,
        countP_cleared]
  have hrelayed := hcleared (pieces.filter seen)
  have hpieces := hsplit pieces
  have hstream := congrArg (List.countP nonzero) hreads.flatten
  rw [List.countP_append] at hstream
  change responses.flatten = ((pieces.filter seen).map cleared).flatten at hwritten
  rw [hwritten, hrelayed, hseen] at hcount
  have hresponses := countP_unseen_eq_zero (l := responses) (by omega)
  have hall := countP_unseen_eq_zero (l := pieces) (by omega)
  have hunread : ∀ b ∈ unread, b = 0 := by
    have hzero : unread.countP nonzero = 0 := by omega
    rw [List.countP_eq_zero] at hzero
    intro b hb
    by_contra hne
    exact hzero b hb (nonzero_eq_true.mpr hne)
  rw [List.filter_eq_self.mpr hresponses] at hseen
  rw [List.filter_eq_self.mpr hall] at hwritten
  have hclient : ∀ bytes ∈ responses, bytes.length = messageSize := fun bytes hbytes =>
    hfull bytes hbytes (hresponses bytes hbytes)
  refine ⟨?_, hclient⟩
  have hmessages : ∀ msg ∈ messages, msg.length = messageSize := fun msg hmsg => (hwrites.1 msg hmsg).1
  refine hreads.whole hmessages rfl ?_ hunread
  have hsize : ∀ full ∈ pieces.map cleared, full.length = messageSize := by
    intro full hmem
    obtain ⟨piece, hpiece, rfl⟩ := List.mem_map.mp hmem
    exact length_cleared (hreads.length_le piece hpiece)
  exact pieces_unique (by decide : 0 < messageSize) hsize hmessages (hwritten.symm.trans (hseen ▸ rfl))

end Delivery

theorem messages_delivered_iff (h : Connected server senderFd fd) (hwrites : Writes messages)
    (hreads : ServerReads messages.flatten pieces unread)
    (hcut : Cut messageSize (writtenTo fd (relay server senderFd pieces)).flatten responses) :
    (∀ buffers : ℕ → Bytes, (∀ i, (buffers i).length = messageSize) →
      processed buffers responses = messages) ↔
    WholeReads pieces unread ∧ ∀ bytes ∈ responses, bytes.length = messageSize := by
  constructor
  · exact whole_of_delivered h hwrites hreads hcut
  · rintro ⟨hserver, hclient⟩ buffers hbuffers
    exact delivered h hwrites hreads hcut hserver hclient hbuffers

section Example

def twoClients : Server := ⟨3, [⟨3, false⟩, ⟨4, true⟩, ⟨5, false⟩], 2⟩

lemma twoClients_connected : Connected twoClients 4 5 := ⟨by decide, by decide, by decide, by decide⟩

def letters (n : ℕ) (letter : UInt8) : Bytes := List.replicate n letter

/-- The front of a `USER_MESSAGE` with `n` bytes of its text. -/
def userMessage (n : ℕ) (letter : UInt8) : Bytes := [2, 0, 0, 0] ++ letters n letter

lemma typeOf_userMessage (n : ℕ) (letter : UInt8) (rest : Bytes) :
    typeOf (userMessage n letter ++ rest) = some .userMessage := rfl

lemma length_userMessage (n : ℕ) (letter : UInt8) : (userMessage n letter).length = 4 + n := by
  simp [userMessage, letters]
  omega

lemma cleared_userMessage (letter : UInt8) : cleared (userMessage 532 letter) = userMessage 532 letter :=
  cleared_full (length_userMessage 532 letter)

lemma typeOf_cleared_userMessage (n : ℕ) (letter : UInt8) :
    typeOf (cleared (userMessage n letter)) = some .userMessage := typeOf_userMessage n letter _

lemma isMessage_userMessage (letter : UInt8) : IsMessage (userMessage 532 letter) :=
  ⟨length_userMessage 532 letter, nofun⟩

theorem messages_delivered_two :
    processed (fun _ => List.replicate messageSize 0) [userMessage 532 65, userMessage 532 66] =
      [userMessage 532 65, userMessage 532 66] := by
  have hmem : ∀ msg ∈ [userMessage 532 65, userMessage 532 66], ∃ letter, msg = userMessage 532 letter := by
    intro msg hmsg
    rcases List.mem_pair.mp hmsg with rfl | rfl
    · exact ⟨65, rfl⟩
    · exact ⟨66, rfl⟩
  have hlength : ∀ msg ∈ [userMessage 532 65, userMessage 532 66], msg.length = messageSize := by
    intro msg hmsg
    obtain ⟨letter, rfl⟩ := hmem msg hmsg
    exact length_userMessage 532 letter
  have hwrites : Writes [userMessage 532 65, userMessage 532 66] := by
    refine ⟨fun msg hmsg => ?_, fun msg hmsg => ?_⟩
    · obtain ⟨letter, rfl⟩ := hmem msg hmsg
      exact isMessage_userMessage letter
    · rw [List.mem_singleton.mp hmsg]
      exact nofun
  have hread : ∀ {rest pieces unread} (letter : UInt8), ServerReads rest pieces unread →
      ServerReads (userMessage 532 letter ++ rest) (userMessage 532 letter :: pieces) unread := by
    intro rest pieces unread letter h
    exact .read (List.cons_ne_nil _ _) (length_userMessage 532 letter).le
      (by rw [typeOf_cleared_userMessage]; exact nofun) h
  have hreads : ServerReads [userMessage 532 65, userMessage 532 66].flatten
      [userMessage 532 65, userMessage 532 66] [] := hread 65 (hread 66 .done)
  have hwritten : writtenTo 5 (relay twoClients 4 [userMessage 532 65, userMessage 532 66]) =
      [userMessage 532 65, userMessage 532 66] := by
    have htype : ∀ letter, typeOf (userMessage 532 letter) = some .userMessage := fun _ => rfl
    rw [writtenTo_relay twoClients_connected hreads]
    simp only [List.filter_cons, cleared_userMessage, htype, Option.isSome_some, if_true,
      List.filter_nil, List.map_cons, List.map_nil]
  have hcut : Cut messageSize
      (writtenTo 5 (relay twoClients 4 [userMessage 532 65, userMessage 532 66])).flatten
      [userMessage 532 65, userMessage 532 66] := by
    refine ⟨by rw [hwritten], fun piece hpiece => ?_, fun piece hpiece => (hlength piece hpiece).le⟩
    obtain ⟨letter, rfl⟩ := hmem piece hpiece
    exact List.cons_ne_nil _ _
  exact (messages_delivered_iff twoClients_connected hwrites hreads hcut).mpr
    ⟨⟨nofun, fun bytes hbytes => .inl (hlength bytes hbytes)⟩, hlength⟩ _ fun _ => List.length_replicate

lemma writes_userMessage : Writes [userMessage 532 65] := by
  refine ⟨fun msg hmsg => ?_, nofun⟩
  rw [List.mem_singleton.mp hmsg]
  exact isMessage_userMessage 65

theorem message_cut_short :
    ¬∀ (server : Server) (senderFd fd : ℕ) (messages pieces responses : List Bytes) (unread : Bytes),
      Connected server senderFd fd → Writes messages →
      ServerReads messages.flatten pieces unread →
      Cut messageSize (writtenTo fd (relay server senderFd pieces)).flatten responses →
      ∀ buffers : ℕ → Bytes, (∀ i, (buffers i).length = messageSize) →
        processed buffers responses = messages := by
  intro hclaim
  have hstream : [userMessage 532 65].flatten = userMessage 296 65 ++ (letters 236 65 ++ []) := by
    rw [List.append_nil, userMessage, userMessage, List.append_assoc, letters, letters, letters,
      List.replicate_append_replicate, List.flatten_singleton]
  have hfront : typeOf (cleared (userMessage 296 65)) = some .userMessage := typeOf_userMessage 296 65 _
  have hrest : typeOf (cleared (letters 236 65)) = none := rfl
  have hreads : ServerReads [userMessage 532 65].flatten [userMessage 296 65, letters 236 65] [] := by
    rw [hstream]
    refine .read (List.cons_ne_nil _ _) ?_ (by rw [hfront]; exact nofun)
      (.read (List.cons_ne_nil _ _) ?_ (by rw [hrest]; exact nofun) .done)
    · rw [length_userMessage]
      decide
    · rw [letters, List.length_replicate]
      decide
  have hwritten : writtenTo 5 (relay twoClients 4 [userMessage 296 65, letters 236 65]) =
      [cleared (userMessage 296 65)] := by
    rw [writtenTo_relay twoClients_connected hreads]
    simp [hfront, hrest]
  have hsize : (cleared (userMessage 296 65)).length = messageSize := by
    apply length_cleared
    rw [length_userMessage]
    decide
  have hcut : Cut messageSize (writtenTo 5 (relay twoClients 4 [userMessage 296 65, letters 236 65])).flatten
      [cleared (userMessage 296 65)] := by
    refine ⟨by rw [hwritten], fun piece hpiece => ?_, fun piece hpiece => ?_⟩
    · rw [List.mem_singleton.mp hpiece]
      exact List.cons_ne_nil _ _
    · rw [List.mem_singleton.mp hpiece]
      exact hsize.le
  have hprocessed := hclaim twoClients 4 5 _ _ _ _ twoClients_connected writes_userMessage hreads hcut
  obtain ⟨⟨-, hwhole⟩, -⟩ :=
    whole_of_delivered twoClients_connected writes_userMessage hreads hcut hprocessed
  rcases hwhole _ List.mem_cons_self with hlen | ⟨hleft, -⟩
  · rw [length_userMessage] at hlen
    exact absurd hlen (by decide)
  · rw [hfront] at hleft
    cases hleft

end Example

end SystemsLab.Chat
