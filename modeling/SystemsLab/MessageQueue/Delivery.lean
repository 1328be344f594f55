import SystemsLab.MessageQueue.Users
import Mathlib.Tactic.Cases

namespace SystemsLab.MessageQueue

open CLib Streams

def User.owed (user : User) : Option ℤ :=
  match user.receiver with
  | .acking senderId => some senderId
  | _ => none

structure Traces where
  shown : List (ℤ × Bytes)
  notices : List Bytes
  posted : List Bytes
  refused : List ℤ
  owed : Option ℤ

def User.traces (user : User) : Traces :=
  ⟨user.shown, user.notices, user.posted, user.refused, user.owed⟩

def ackMessage (senderId : ℤ) (now : Bytes) : Message := ⟨ackType + senderId, .ack now⟩

inductive Effect (ids : Ids) (traces : Traces) :
    Option (List Message) → Option (List Message) → List Message → Traces → Prop
  | quiet (queue : Option (List Message)) : Effect ids traces queue queue [] traces
  | removes (queue : Option (List Message)) : Effect ids traces queue none [] traces
  | shows {queue rest : List Message} {msg : Message}
    (htake : takeFirst Message.msgtype ids.userId queue = some (msg, rest))
    (howed : traces.owed = none) :
    Effect ids traces (some queue) (some rest) [] { traces with
      shown := traces.shown ++ [msg.body.asMsgbuf]
      owed := some msg.body.asMsgbuf.1 }
  | acks (queue : List Message) {senderId : ℤ} (now : Bytes) (howed : traces.owed = some senderId) :
    Effect ids traces (some queue) (some (queue ++ [ackMessage senderId now]))
      [ackMessage senderId now] { traces with owed := none }
  | refuses (queue : Option (List Message)) {senderId : ℤ} (howed : traces.owed = some senderId) :
    Effect ids traces queue queue [] { traces with
      refused := traces.refused ++ [senderId]
      owed := none }
  | notes {queue rest : List Message} {msg : Message}
    (htake : takeFirst Message.msgtype (ackType + ids.userId) queue = some (msg, rest)) :
    Effect ids traces (some queue) (some rest) [] { traces with
      notices := traces.notices ++ [msg.body.asAck] }
  | posts (queue : List Message) (line : Bytes) :
    Effect ids traces (some queue) (some (queue ++ [textMessage ids line])) [textMessage ids line]
      { traces with posted := traces.posted ++ [line] }

variable {ids : Ids} {user : User} {queue queue' : Option (List Message)} {sent log : List Message}
  {size : ℕ} {msgtype : ℤ} {body : Body} {rest messages : List Message} {msg : Message} {full : Bool}

section Steps

lemma msgrcv_eq_message (h : msgrcv size msgtype queue = .message body rest) :
    ∃ messages msg, queue = some messages ∧ msg.body = body ∧
      takeFirst Message.msgtype msgtype messages = some (msg, rest) := by
  cases queue with
  | none => cases h
  | some messages =>
    rw [msgrcv] at h
    cases htake : takeFirst Message.msgtype msgtype messages with
    | none =>
      rw [htake] at h
      cases h
    | some taken =>
      obtain ⟨msg, others⟩ := taken
      rw [htake] at h
      simp only at h
      split_ifs at h
      cases h
      exact ⟨messages, msg, rfl, rfl, htake⟩

lemma msgsnd_eq_some (h : msgsnd full msg queue = some messages) :
    ∃ before, queue = some before ∧ messages = before ++ [msg] := by
  cases queue with
  | none => cases h
  | some before =>
    rw [msgsnd] at h
    split_ifs at h
    exact ⟨before, rfl, (Option.some.inj h).symm⟩

lemma childStep_effect (answers : Answers) :
    Effect ids user.traces queue (childStep ids answers queue user).1
      (childStep ids answers queue user).2.1 (childStep ids answers queue user).2.2.traces := by
  cases hat : user.receiver with
  | checking =>
    have howed : user.owed = none := by rw [User.owed, hat]
    simp only [childStep, hat, User.traces, howed]
    by_cases hexit : user.childExit <;> simp only [hexit, User.owed] <;> exact .quiet queue
  | receiving =>
    have howed : user.owed = none := by rw [User.owed, hat]
    simp only [childStep, hat]
    cases hrecv : msgrcv msgDataSize ids.userId queue with
    | message body rest =>
      obtain ⟨messages, msg, rfl, rfl, htake⟩ := msgrcv_eq_message hrecv
      exact .shows htake howed
    | _ =>
      simp only [User.traces, howed]
      exact .quiet queue
  | acking senderId =>
    have howed : user.owed = some senderId := by rw [User.owed, hat]
    simp only [childStep, hat]
    cases hsend : msgsnd answers.full ⟨ackType + senderId, .ack answers.now⟩ queue with
    | some messages =>
      obtain ⟨before, rfl, rfl⟩ := msgsnd_eq_some hsend
      exact .acks before answers.now howed
    | none => exact .refuses queue howed
  | reading =>
    have howed : user.owed = none := by rw [User.owed, hat]
    simp only [childStep, hat]
    cases hrecv : msgrcv ackDataSize (ackType + ids.userId) queue with
    | message body rest =>
      obtain ⟨messages, msg, rfl, rfl, htake⟩ := msgrcv_eq_message hrecv
      have hnotes : Effect ids user.traces _ _ _ _ := .notes htake
      simp only [User.traces, howed] at hnotes ⊢
      exact hnotes
    | _ =>
      simp only [User.traces, howed]
      exact .quiet queue
  | exited =>
    simp only [childStep, hat]
    exact .quiet queue

lemma parentStep_effect (answers : Answers) :
    Effect ids user.traces queue (parentStep ids answers queue user).1
      (parentStep ids answers queue user).2.1 (parentStep ids answers queue user).2.2.traces := by
  cases hat : user.sender with
  | posting line =>
    simp only [parentStep, hat]
    cases hsend : msgsnd answers.full (textMessage ids line) queue with
    | some messages =>
      obtain ⟨before, rfl, rfl⟩ := msgsnd_eq_some hsend
      exact .posts before line
    | none => exact .quiet queue
  | typing =>
    simp only [parentStep, hat]
    cases answers.input <;> exact .quiet queue
  | removing =>
    simp only [parentStep, hat]
    split_ifs
    · exact .quiet queue
    · exact .removes queue
  | _ =>
    simp only [parentStep, hat]
    exact .quiet queue

lemma userStep_effect (ids : Ids) (queue : Option (List Message)) (user : User) (action : Action) :
    Effect ids user.traces queue (userStep ids queue user action).1
      (userStep ids queue user action).2.1 (userStep ids queue user action).2.2.traces := by
  cases action with
  | child answers => exact childStep_effect answers
  | parent answers => exact parentStep_effect answers
  | interruptChild => exact .quiet queue
  | interruptParent => exact .quiet queue

end Steps

variable {U : Type}

structure Apart (ids : U → Ids) : Prop where
  injective : Function.Injective fun u => (ids u).userId
  user_ne : ∀ u v, (ids u).userId ≠ ackType + (ids v).userId
  receiver_ne : ∀ u v, (ids u).receiverId ≠ ackType + (ids v).userId

def textFrom (senderId : ℤ) (msg : Message) : Option Bytes :=
  match msg.body with
  | .text sender data => if sender = senderId then some data else none
  | .ack _ => none

inductive Sent (ids : U → Ids) : Message → Prop
  | line (u : U) (line : Bytes) : Sent ids (textMessage (ids u) line)
  | ack {u v : U} (h : (ids u).receiverId = (ids v).userId) (now : Bytes) :
    Sent ids (ackMessage (ids u).userId now)

structure Fits (ids : U → Ids) (queue : Option (List Message)) (log : List Message) (v : U)
    (t : Traces) : Prop where
  shown : Drawn Message.msgtype (fun msg => msg.body.asMsgbuf) (ids v).userId log queue t.shown
  notices : Drawn Message.msgtype (fun msg => msg.body.asAck) (ackType + (ids v).userId) log queue
    t.notices
  posted : log.filterMap (textFrom (ids v).userId) = t.posted.map textOf
  owed : ∀ x, t.owed = some x → ∃ u, (ids u).userId = x ∧ (ids u).receiverId = (ids v).userId
  acks : ∀ u, (ids u).receiverId = (ids v).userId →
    t.shown.countP (·.1 = (ids u).userId) =
      (channel Message.msgtype (ackType + (ids u).userId) log).length +
        t.owed.toList.count (ids u).userId + t.refused.count (ids u).userId

structure Sound (ids : U → Ids) (queue : Option (List Message)) (log : List Message)
    (traces : U → Traces) : Prop where
  sent : ∀ msg ∈ log, Sent ids msg
  fits : ∀ v, Fits ids queue log v (traces v)

section Invariant

variable {ids : U → Ids} {traces : U → Traces} {t : Traces} {u v w : U} {line now : Bytes}

lemma textMessage_to (ids : Ids) (line : Bytes) : (textMessage ids line).msgtype = ids.receiverId := rfl

lemma ackMessage_to (senderId : ℤ) (now : Bytes) :
    (ackMessage senderId now).msgtype = ackType + senderId := rfl

lemma Apart.eq_of_acks (hapart : Apart ids) (h : ackType + (ids u).userId = ackType + (ids w).userId) :
    u = w :=
  hapart.injective (add_left_cancel h)

lemma Sent.to_user (h : Sent ids msg) (hapart : Apart ids) (hto : msg.msgtype = (ids v).userId) :
    ∃ u line, msg = textMessage (ids u) line ∧ (ids u).receiverId = (ids v).userId := by
  cases h with
  | line u line => exact ⟨u, line, rfl, hto⟩
  | ack h now => exact absurd hto.symm (hapart.user_ne _ _)

lemma Sent.to_acks (h : Sent ids msg) (hapart : Apart ids)
    (hto : msg.msgtype = ackType + (ids u).userId) :
    ∃ v now, (ids u).receiverId = (ids v).userId ∧ msg = ackMessage (ids u).userId now := by
  cases h with
  | line w line => exact absurd hto (hapart.receiver_ne _ _)
  | @ack w v h now =>
    obtain rfl := hapart.eq_of_acks hto
    exact ⟨v, now, h, rfl⟩

namespace Fits

lemma start (ids : U → Ids) (v : U) : Fits ids (some []) [] v User.start.traces := by
  refine ⟨.nil, .nil, rfl, fun x hx => ?_, fun u _ => rfl⟩
  cases hx

lemma gone {queue : Option (List Message)} (h : Fits ids queue log v t) : Fits ids none log v t :=
  ⟨h.shown.gone, h.notices.gone, h.posted, h.owed, h.acks⟩

lemma shows (h : Fits ids (some messages) log v t) (hapart : Apart ids)
    (htake : takeFirst Message.msgtype (ids v).userId messages = some (msg, rest))
    (howed : t.owed = none) (hsent : Sent ids msg) (hto : msg.msgtype = (ids v).userId) :
    Fits ids (some rest) log v { t with
      shown := t.shown ++ [msg.body.asMsgbuf]
      owed := some msg.body.asMsgbuf.1 } := by
  obtain ⟨w, line, hmsg, hreceiver⟩ := hsent.to_user hapart hto
  have hsender : msg.body.asMsgbuf.1 = (ids w).userId := by
    rw [hmsg]
    rfl
  refine ⟨h.shown.take htake, h.notices.take_other (hapart.user_ne v v).symm htake, h.posted, ?_, ?_⟩
  · intro x hx
    exact ⟨w, hsender.symm.trans (Option.some.inj hx), hreceiver⟩
  · intro u hu
    have hcount := h.acks u hu
    rw [howed] at hcount
    simp only [List.countP_append, List.countP_singleton, hcount, Option.toList_some,
      Option.toList_none, List.count_nil, List.count_singleton, decide_eq_true_eq, beq_iff_eq]
    omega

lemma notes (h : Fits ids (some messages) log v t) (hapart : Apart ids)
    (htake : takeFirst Message.msgtype (ackType + (ids v).userId) messages = some (msg, rest)) :
    Fits ids (some rest) log v { t with notices := t.notices ++ [msg.body.asAck] } :=
  ⟨h.shown.take_other (hapart.user_ne v v) htake, h.notices.take htake, h.posted, h.owed, h.acks⟩

lemma refuses {queue : Option (List Message)} {x : ℤ} (h : Fits ids queue log v t)
    (howed : t.owed = some x) :
    Fits ids queue log v { t with refused := t.refused ++ [x], owed := none } := by
  refine ⟨h.shown, h.notices, h.posted, fun y hy => ?_, fun u hu => ?_⟩
  · cases hy
  · rw [h.acks u hu, howed]
    simp only [Option.toList_some, Option.toList_none, List.count_nil, List.count_append]
    omega

lemma take_other {k : ℤ} (h : Fits ids (some messages) log v t) (hk : (ids v).userId ≠ k)
    (hk' : ackType + (ids v).userId ≠ k)
    (htake : takeFirst Message.msgtype k messages = some (msg, rest)) :
    Fits ids (some rest) log v t :=
  ⟨h.shown.take_other hk htake, h.notices.take_other hk' htake, h.posted, h.owed, h.acks⟩

lemma post_line (h : Fits ids (some messages) log v t) (hapart : Apart ids) (u : U) (line : Bytes)
    (hother : u ≠ v) : Fits ids (some (messages ++ [textMessage (ids u) line]))
      (log ++ [textMessage (ids u) line]) v t := by
  refine ⟨h.shown.post _, h.notices.post _, ?_, h.owed, fun w hw => ?_⟩
  · have hne : (ids u).userId ≠ (ids v).userId := fun heq => hother (hapart.injective heq)
    have hfrom : textFrom (ids v).userId (textMessage (ids u) line) = none := if_neg hne
    rw [List.filterMap_append, h.posted, List.filterMap_cons_none hfrom]
    exact List.append_nil _
  · have hto : (textMessage (ids u) line).msgtype ≠ ackType + (ids w).userId := hapart.receiver_ne u w
    rw [channel_concat_of_ne hto]
    exact h.acks w hw

lemma posts (h : Fits ids (some messages) log v t) (hapart : Apart ids) (line : Bytes) :
    Fits ids (some (messages ++ [textMessage (ids v) line])) (log ++ [textMessage (ids v) line]) v
      { t with posted := t.posted ++ [line] } := by
  refine ⟨h.shown.post _, h.notices.post _, ?_, h.owed, fun w hw => ?_⟩
  · have hfrom : textFrom (ids v).userId (textMessage (ids v) line) = some (textOf line) := if_pos rfl
    rw [List.filterMap_append, h.posted, List.filterMap_cons_some hfrom, List.map_append]
    rfl
  · have hto : (textMessage (ids v) line).msgtype ≠ ackType + (ids w).userId := hapart.receiver_ne v w
    rw [channel_concat_of_ne hto]
    exact h.acks w hw

lemma filterMap_ack (h : Fits ids (some messages) log v t) :
    (log ++ [ackMessage (ids u).userId now]).filterMap (textFrom (ids v).userId) =
      t.posted.map textOf := by
  rw [List.filterMap_append, h.posted]
  exact List.append_nil _

lemma post_ack (h : Fits ids (some messages) log v t) (hapart : Apart ids) (now : Bytes)
    (hu : (ids u).receiverId = (ids w).userId) (hother : w ≠ v) :
    Fits ids (some (messages ++ [ackMessage (ids u).userId now]))
      (log ++ [ackMessage (ids u).userId now]) v t := by
  refine ⟨h.shown.post _, h.notices.post _, h.filterMap_ack, h.owed, fun u' hu' => ?_⟩
  rw [channel_concat_of_ne]
  · exact h.acks u' hu'
  · intro heq
    obtain rfl := hapart.eq_of_acks heq
    exact hother (hapart.injective (hu.symm.trans hu'))

lemma sends_ack (h : Fits ids (some messages) log v t) (now : Bytes)
    (howed : t.owed = some (ids w).userId) :
    Fits ids (some (messages ++ [ackMessage (ids w).userId now]))
      (log ++ [ackMessage (ids w).userId now]) v { t with owed := none } := by
  refine ⟨h.shown.post _, h.notices.post _, h.filterMap_ack, fun y hy => ?_, fun u hu => ?_⟩
  · cases hy
  · have hcount := h.acks u hu
    rw [howed] at hcount
    rw [hcount, channel_concat, ackMessage_to]
    by_cases hsame : (ids w).userId = (ids u).userId
    · simp only [hsame, Option.toList_some, List.count_singleton_self, if_true, List.length_append,
        List.length_singleton, Option.toList_none, List.count_nil]
    · have hne : ackType + (ids w).userId ≠ ackType + (ids u).userId := fun heq =>
        hsame (add_left_cancel heq)
      have hnone : [(ids w).userId].count (ids u).userId = 0 := by
        rw [List.count_singleton, if_neg (by simpa using hsame)]
      simp only [if_neg hne, Option.toList_some, hnone, List.append_nil, Option.toList_none,
        List.count_nil]

end Fits

variable [DecidableEq U]

lemma sound_update {queue queue' : Option (List Message)} (h : Sound ids queue log traces)
    (hsent : ∀ msg ∈ log ++ sent, Sent ids msg)
    (hother : ∀ w, w ≠ v → Fits ids queue log w (traces w) →
      Fits ids queue' (log ++ sent) w (traces w))
    (hown : Fits ids queue' (log ++ sent) v t) :
    Sound ids queue' (log ++ sent) (Function.update traces v t) := by
  refine ⟨hsent, fun w => ?_⟩
  by_cases hw : w = v
  · subst hw
    rwa [Function.update_self]
  · rw [Function.update_of_ne hw]
    exact hother w hw (h.fits w)

lemma Sound.step {queue queue' : Option (List Message)} (h : Sound ids queue log traces)
    (hapart : Apart ids) (heffect : Effect (ids v) (traces v) queue queue' sent t) :
    Sound ids queue' (log ++ sent) (Function.update traces v t) := by
  have hfits := h.fits v
  have hkeep : ∀ msg ∈ log ++ [], Sent ids msg := by
    rw [List.append_nil]
    exact h.sent
  have hmore : ∀ {msg : Message}, Sent ids msg → ∀ msg' ∈ log ++ [msg], Sent ids msg' := by
    intro msg hmsg msg' hmem
    rcases List.mem_append.mp hmem with hmem | hmem
    · exact h.sent msg' hmem
    · rwa [List.mem_singleton.mp hmem]
  cases heffect with
  | quiet =>
    apply sound_update h hkeep
    · intro w _ hw
      rwa [List.append_nil]
    · rwa [List.append_nil]
  | removes =>
    apply sound_update h hkeep
    · intro w _ hw
      rw [List.append_nil]
      exact hw.gone
    · rw [List.append_nil]
      exact hfits.gone
  | shows htake howed =>
    obtain ⟨hmem, hto⟩ := hfits.shown.mem_log htake
    apply sound_update h hkeep
    · intro w hw hfitsw
      rw [List.append_nil]
      exact hfitsw.take_other (fun heq => hw (hapart.injective heq)) (hapart.user_ne v w).symm htake
    · rw [List.append_nil]
      exact hfits.shows hapart htake howed (h.sent _ hmem) hto
  | acks messages now howed =>
    obtain ⟨u, rfl, hreceiver⟩ := hfits.owed _ howed
    apply sound_update h (hmore (.ack hreceiver now))
    · exact fun w hw hfitsw => hfitsw.post_ack hapart now hreceiver hw.symm
    · exact hfits.sends_ack now howed
  | refuses queue howed =>
    apply sound_update h hkeep
    · intro w _ hw
      rwa [List.append_nil]
    · rw [List.append_nil]
      exact hfits.refuses howed
  | notes htake =>
    apply sound_update h hkeep
    · intro w hw hfitsw
      rw [List.append_nil]
      exact hfitsw.take_other (hapart.user_ne w v) (fun heq => hw (hapart.eq_of_acks heq)) htake
    · rw [List.append_nil]
      exact hfits.notes hapart htake
  | posts messages line =>
    apply sound_update h (hmore (.line v line))
    · exact fun w hw hfitsw => hfitsw.post_line hapart v line hw.symm
    · exact hfits.posts hapart line

lemma Reachable.sound {s : State U} (h : Reachable ids s) (hapart : Apart ids) :
    Sound ids s.queue s.log fun u => (s.user u).traces := by
  induction h with
  | start => exact ⟨nofun, fun v => .start ids v⟩
  | @step s h u action ih =>
    have hstep := ih.step hapart (userStep_effect (ids u) s.queue (s.user u) action)
    have htraces : (fun v => ((MessageQueue.step ids s u action).user v).traces) =
        Function.update (fun v => (s.user v).traces) u
          (userStep (ids u) s.queue (s.user u) action).2.2.traces := by
      funext v
      simp only [MessageQueue.step]
      by_cases hv : v = u
      · subst hv
        rw [Function.update_self, Function.update_self]
      · rw [Function.update_of_ne hv, Function.update_of_ne hv]
    rw [htraces]
    exact hstep

end Invariant

section Views

variable {ids : U → Ids} {u v : U} {done : List Message} {k : ℤ}

lemma Sent.textFrom_eq_some (h : Sent ids msg) (hapart : Apart ids) {data : Bytes}
    (hfrom : textFrom (ids u).userId msg = some data) : msg.msgtype = (ids u).receiverId := by
  cases h with
  | line w line =>
    have hsame : w = u := by
      by_contra hne
      have hnone : textFrom (ids u).userId (textMessage (ids w) line) = none :=
        if_neg fun heq => hne (hapart.injective heq)
      rw [hnone] at hfrom
      cases hfrom
    rw [hsame, textMessage_to]
  | ack h now => cases hfrom

lemma filterMap_channel (hapart : Apart ids) (hsent : ∀ msg ∈ log, Sent ids msg) :
    (channel Message.msgtype k log).filterMap (textFrom (ids u).userId) =
      if (ids u).receiverId = k then log.filterMap (textFrom (ids u).userId) else [] := by
  induction log with
  | nil => exact (ite_self _).symm
  | cons msg log ih =>
    have hrest := ih fun m hm => hsent m (List.mem_cons_of_mem msg hm)
    have hmsg := hsent msg List.mem_cons_self
    by_cases hk : msg.msgtype = k
    · subst hk
      rw [channel_cons_self]
      cases hfrom : textFrom (ids u).userId msg with
      | none => rw [List.filterMap_cons_none hfrom, List.filterMap_cons_none hfrom, hrest]
      | some data =>
        have hto := (hmsg.textFrom_eq_some hapart hfrom).symm
        rw [List.filterMap_cons_some hfrom, List.filterMap_cons_some hfrom, hrest, if_pos hto,
          if_pos hto]
    · rw [channel_cons_of_ne hk, hrest]
      cases hfrom : textFrom (ids u).userId msg with
      | none => rw [List.filterMap_cons_none hfrom]
      | some data =>
        have hto : (ids u).receiverId ≠ k := fun heq =>
          hk ((hmsg.textFrom_eq_some hapart hfrom).trans heq)
        rw [if_neg hto, if_neg hto]

lemma texts_shown (hdone : ∀ msg ∈ done, ∃ w line, msg = textMessage (ids w) line) (x : ℤ) :
    ((done.map fun msg => msg.body.asMsgbuf).filter (·.1 = x)).map Prod.snd =
      done.filterMap (textFrom x) := by
  induction done with
  | nil => rfl
  | cons msg done ih =>
    obtain ⟨w, line, rfl⟩ := hdone msg List.mem_cons_self
    have hrest := ih fun m hm => hdone m (List.mem_cons_of_mem _ hm)
    by_cases hx : (ids w).userId = x
    · have hfrom : textFrom x (textMessage (ids w) line) = some (textOf line) := if_pos hx
      have hsender : (textMessage (ids w) line).body.asMsgbuf.1 = x := hx
      rw [List.map_cons, List.filter_cons, if_pos (decide_eq_true hsender), List.map_cons, hrest,
        List.filterMap_cons_some hfrom]
      rfl
    · have hfrom : textFrom x (textMessage (ids w) line) = none := if_neg hx
      have hother : (textMessage (ids w) line).body.asMsgbuf.1 ≠ x := hx
      rw [List.map_cons, List.filter_cons, if_neg (by simpa using hother), hrest,
        List.filterMap_cons_none hfrom]

variable [DecidableEq U] {s : State U}

theorem lines_seen_in_order (hapart : Apart ids) (h : Reachable ids s) (u v : U) :
    (∃ waiting : List Bytes,
      (if (ids u).receiverId = (ids v).userId then (s.user u).posted.map textOf else []) =
        ((s.user v).shown.filter (·.1 = (ids u).userId)).map Prod.snd ++ waiting ∧
      ∀ queue, s.queue = some queue →
        waiting = (channel Message.msgtype (ids v).userId queue).filterMap
          (textFrom (ids u).userId)) ∧
    ∀ x ∈ (s.user v).shown, ∃ w, x.1 = (ids w).userId ∧ (ids w).receiverId = (ids v).userId := by
  have hsound := h.sound hapart
  obtain ⟨done, pending, hlog, hdone, hqueue⟩ := (hsound.fits v).shown
  have hline : ∀ msg ∈ done ++ pending, ∃ w line, msg = textMessage (ids w) line ∧
      (ids w).receiverId = (ids v).userId := by
    intro msg hmsg
    rw [← hlog, mem_channel] at hmsg
    exact (hsound.sent msg hmsg.1).to_user hapart hmsg.2
  refine ⟨⟨pending.filterMap (textFrom (ids u).userId), ?_, ?_⟩, ?_⟩
  · have hposted := (hsound.fits u).posted
    have hshown : done.map (fun msg => msg.body.asMsgbuf) = (s.user v).shown := hdone
    have htexts := filterMap_channel hapart hsound.sent (u := u) (k := (ids v).userId)
    rw [hposted] at htexts
    change _ = if _ then (s.user u).posted.map textOf else [] at htexts
    rw [← htexts, hlog, List.filterMap_append, ← hshown, texts_shown]
    intro msg hmsg
    obtain ⟨w, line, hmsg, -⟩ := hline msg (List.mem_append_left pending hmsg)
    exact ⟨w, line, hmsg⟩
  · intro queue hq
    rw [hqueue queue hq]
  · intro x hx
    change x ∈ (s.user v).traces.shown at hx
    rw [← hdone] at hx
    obtain ⟨msg, hmsg, rfl⟩ := List.mem_map.mp hx
    obtain ⟨w, line, rfl, hreceiver⟩ := hline msg (List.mem_append_left pending hmsg)
    exact ⟨w, rfl, hreceiver⟩

def pair (u : Bool) : Ids :=
  if u then ⟨2, 1, by decide, by decide⟩ else ⟨1, 2, by decide, by decide⟩

lemma pair_apart : Apart pair where
  injective := by
    intro u v
    revert u v
    decide
  user_ne := by decide
  receiver_ne := by decide

def typing (line : Bytes) : Answers := ⟨ascii "2025-01-01 00:00:00", some line, false, false, false, false⟩

def talk : List (Bool × Action) :=
  [(false, .parent (typing [])), (false, .parent (typing (ascii "hi\n"))), (false, .parent (typing [])),
    (true, .child (typing [])), (true, .child (typing [])), (true, .child (typing []))]

lemma readIds_eq {userInput receiverInput : Bytes} {i : Ids} (huser : getId userInput = i.userId)
    (hreceiver : getId receiverInput = i.receiverId) : readIds userInput receiverInput = .ok i := by
  have hpos : ¬ (getId userInput ≤ 0 ∨ getId receiverInput ≤ 0) := by
    rw [huser, hreceiver, not_or, not_le, not_le]
    exact ⟨i.user_pos, i.receiver_pos⟩
  obtain ⟨userId, receiverId, huserPos, hreceiverPos⟩ := i
  dsimp only at huser hreceiver
  subst huser hreceiver
  rw [readIds, dif_neg hpos]

theorem lines_seen_pair : readIds (ascii "1") (ascii "2") = .ok (pair false) ∧
    readIds (ascii "2") (ascii "1") = .ok (pair true) ∧
    ((run pair talk).user true).shown = [(1, ascii "hi\n")] ∧
    ∀ x ∈ ((run pair talk).user true).shown, ∃ w, x.1 = (pair w).userId ∧ (pair w).receiverId = 2 :=
  ⟨readIds_eq (by decide) (by decide), readIds_eq (by decide) (by decide), by decide,
    (lines_seen_in_order pair_apart (reachable_run pair talk) false true).2⟩

theorem notices_count_reads (hapart : Apart ids) (h : Reachable ids s) (u : U) :
    (∀ v, (ids u).receiverId = (ids v).userId → ∃ waiting,
      (s.user v).shown.countP (·.1 = (ids u).userId) =
        (s.user u).notices.length + waiting + (s.user v).owed.toList.count (ids u).userId +
          (s.user v).refused.count (ids u).userId ∧
      ∀ queue, s.queue = some queue →
        waiting = (channel Message.msgtype (ackType + (ids u).userId) queue).length) ∧
    ((∀ v, (ids u).receiverId ≠ (ids v).userId) → (s.user u).notices = []) := by
  have hsound := h.sound hapart
  obtain ⟨done, pending, hlog, hdone, hqueue⟩ := (hsound.fits u).notices
  have hnotices : (s.user u).notices.length = done.length := by
    change (s.user u).traces.notices.length = _
    rw [← hdone, List.length_map]
  refine ⟨fun v hv => ⟨pending.length, ?_, fun queue hq => ?_⟩, fun hnobody => ?_⟩
  · have hcount := (hsound.fits v).acks u hv
    rw [hlog, List.length_append, ← hnotices] at hcount
    exact hcount
  · rw [hqueue queue hq]
  · rw [← List.length_eq_zero_iff, hnotices, List.length_eq_zero_iff]
    apply List.eq_nil_iff_forall_not_mem.mpr
    intro msg hmsg
    have hmem : msg ∈ channel Message.msgtype (ackType + (ids u).userId) s.log := by
      rw [hlog]
      exact List.mem_append_left pending hmsg
    obtain ⟨hsent, hto⟩ := mem_channel.mp hmem
    obtain ⟨v, now, hreceiver, -⟩ := (hsound.sent msg hsent).to_acks hapart hto
    exact hnobody v hreceiver

theorem notices_count_pair : ∃ waiting, ((run pair talk).user true).shown.countP (·.1 = 1) =
    ((run pair talk).user false).notices.length + waiting +
      ((run pair talk).user true).owed.toList.count 1 + ((run pair talk).user true).refused.count 1 := by
  obtain ⟨waiting, hcount, -⟩ :=
    (notices_count_reads pair_apart (reachable_run pair talk) false).1 true rfl
  exact ⟨waiting, hcount⟩

end Views

end SystemsLab.MessageQueue
