import SystemsLab.Reservation.Sessions
import SystemsLab.Reservation.Bookkeeping

namespace SystemsLab.Reservation

open CLib Threads Function

variable {C : Config}

def storedHash (users : List User) (name : Bytes) : Option Bytes :=
  (users.find? fun u => u.username == name).map fun u => u.hashedPassword

structure Login where
  call : Call
  salt : Option Bytes

def Pc.login (salt : Bytes) : Pc → Pc → Option Login
  | handler c (.lockArray .login), handler _ (.newLockUser _) => some ⟨c, some salt⟩
  | handler c (.unlockArray .login _), handler _ (.loginUnlockUser _) => some ⟨c, none⟩
  | _, _ => none

def logins (s : Server C) (t : Thread C.nCores) (o : Oracle) (s' : Server C) : List Login :=
  ((s.pc t).login o.salt (s'.pc t)).toList

section Hashes

variable {users : List User} {name : Bytes}

lemma storedHash_none_iff : storedHash users name = none ↔ findUser users name = none := by
  rw [storedHash, Option.map_eq_none_iff, List.find?_eq_none, findUser, List.findIdx?_eq_none_iff]
  simp only [beq_iff_eq, beq_eq_false_iff_ne, ne_eq]

lemma storedHash_eq (hn : (usernames users).Nodup) {uid : ℕ} {u : User}
    (hu : users[uid]? = some u) : storedHash users u.username = some u.hashedPassword := by
  rw [storedHash, lookup_eq hn (List.mem_of_getElem? hu), Option.map_some]

lemma storedHash_append (h : findUser users name = none) (hashed : Bytes) :
    storedHash (users ++ [⟨name, hashed, false⟩]) = update (storedHash users) name (some hashed) := by
  funext other
  rw [storedHash, lookup_append h rfl, Function.update_apply]
  split_ifs
  · rfl
  · rfl

lemma storedHash_setLoggedIn (d : Data) (uid : ℕ) (b : Bool) :
    storedHash (d.setLoggedIn uid b).users = storedHash d.users := by
  have hkeep : ∀ (users : List User) (uid : ℕ),
      storedHash (users.modify uid fun u => { u with loggedIn := b }) = storedHash users := by
    intro users
    induction users with
    | nil =>
      intro uid
      rw [List.modify_nil]
    | cons u rest ih =>
      intro uid
      funext name
      cases uid with
      | zero =>
        simp only [storedHash, List.modify_zero_cons, List.find?_cons]
        split <;> rfl
      | succ uid =>
        have hrest := congrFun (ih uid) name
        simp only [storedHash] at hrest
        simp only [storedHash, List.modify_succ_cons, List.find?_cons]
        split
        · rfl
        · exact hrest
  exact hkeep d.users uid

end Hashes

section Steps

variable {w : ℕ} {d d' : Data} {salt : Bytes}

inductive LoginStep (C : Config) (salt : Bytes) (d d' : Data) (pc pc' : Pc) : Prop
  | other (hl : pc.login salt pc' = none) (hs : storedHash d'.users = storedHash d.users)
  | create {c : Call} (hl : pc.login salt pc' = some ⟨c, some salt⟩)
      (hn : storedHash d.users c.request.user = none)
      (hs : storedHash d'.users = update (storedHash d.users) c.request.user
        (some (hashPassword C salt c.request.text)))
  | verify {c : Call} {hashed : Bytes} (hl : pc.login salt pc' = some ⟨c, none⟩)
      (hu : storedHash d.users c.request.user = some hashed)
      (hv : validatePassword C c.request.text hashed = true)
      (hf : flagOf d.users c.request.user = some false)
      (hs : storedHash d'.users = storedHash d.users)

lemma LoginStep.kept {C : Config} {pc pc' : Pc} {name hashed : Bytes}
    (h : LoginStep C salt d d' pc pc') (hh : storedHash d.users name = some hashed) :
    storedHash d'.users name = some hashed := by
  cases h with
  | other _ hs | verify _ _ _ _ hs => rwa [hs]
  | create _ hn hs =>
    rw [hs, update_of_ne, hh]
    rintro rfl
    rw [hn] at hh
    cases hh

lemma LoginStep.flag_eq {C : Config} {pc pc' : Pc} {c : Call} (h : LoginStep C salt d d' pc pc')
    (hlog : pc.login salt pc' = some ⟨c, none⟩) : flagOf d.users c.request.user = some false := by
  cases h with
  | other hl | create hl =>
    rw [hl] at hlog
    cases hlog
  | verify hl hu hv hf =>
    rw [hl] at hlog
    cases hlog
    exact hf

lemma HandlerStep.login {c : Call} {p : Point} {pc : Pc} (h : HandlerStep C w c salt d p d' pc)
    (hn : (usernames d.users).Nodup) (hp : p.Facts d w c) :
    LoginStep C salt d d' (.handler c p) pc := by
  cases h with
  | create hu => exact .create rfl (storedHash_none_iff.mpr hu) (storedHash_append hu _)
  | verify hl hv =>
    obtain ⟨u, hu, hname⟩ := hp.2.2
    rw [Data.user_eq hu] at hl hv
    have hstored : storedHash d.users c.request.user = some u.hashedPassword := by
      rw [← hname]
      exact storedHash_eq hn hu
    refine .verify rfl hstored hv ?_ (storedHash_setLoggedIn ..)
    exact (flagOf_eq_some hn).mpr ⟨_, u, hu, hname, hl⟩
  | logout | newLockUser => exact .other rfl (storedHash_setLoggedIn ..)
  | @known k => cases k <;> exact .other rfl rfl
  | @refuse k => cases k <;> exact .other rfl rfl
  | @unknown k => cases k <;> exact .other rfl rfl
  | _ => exact .other rfl rfl

lemma WorkerStep.login {o : Oracle} {pc pc' : Pc} (h : WorkerStep C w o d pc d' pc')
    (hn : (usernames d.users).Nodup) (hp : pc.Facts C d w) :
    LoginStep C o.salt d d' pc pc' := by
  cases h with
  | handler h => exact h.login hn hp.2.2
  | remove h =>
    cases h with
    | unlockArray => exact .other rfl (storedHash_setLoggedIn ..)
    | _ => exact .other rfl rfl
  | _ => exact .other rfl rfl

lemma server_login {s s' : Server C} {t : Thread C.nCores} {o : Oracle} (hs : Reachable C s)
    (h : (server C).step s t o = .next s') :
    LoginStep C o.salt s.data s'.data (s.pc t) (s'.pc t) := by
  cases t with
  | main =>
    obtain ⟨p, d', p', hp, hm, rfl, hpc⟩ := main_step h
    refine .other ?_ (by rw [hm.users])
    rw [hp]
    rfl
  | worker w =>
    obtain ⟨d', pc', hc, rfl, hpc⟩ := worker_step h
    rw [hpc, update_self]
    exact (workerCode_step hc).login (Reachable.usernames hs) ((Reachable.local hs).facts w)

end Steps

section Binding

def Binds (C : Config) (stored : Option Bytes) : List Login → Prop
  | [] => stored = none
  | first :: later => ∃ salt hashed, first.salt = some salt ∧ stored = some hashed ∧
      hashed = hashPassword C salt first.call.request.text ∧
      ∀ e ∈ later, e.salt = none ∧ validatePassword C e.call.request.text hashed = true

lemma Binds.verify {stored : Option Bytes} {l : List Login} {hashed : Bytes} {c : Call}
    (h : Binds C stored l) (hs : stored = some hashed)
    (hv : validatePassword C c.request.text hashed = true) : Binds C stored (l ++ [⟨c, none⟩]) := by
  cases l with
  | nil =>
    rw [Binds, hs] at h
    cases h
  | cons first later =>
    obtain ⟨salt, hashed', hsalt, hs', hh, hlater⟩ := h
    obtain rfl : hashed = hashed' := Option.some.inj (hs.symm.trans hs')
    refine ⟨salt, hashed, hsalt, hs', hh, fun e he => ?_⟩
    rcases List.mem_append.mp he with he | he
    · exact hlater e he
    · rw [List.mem_singleton.mp he]
      exact ⟨rfl, hv⟩

lemma Binds.create {c : Call} {l : List Login} (salt : Bytes) (h : Binds C none l) :
    Binds C (some (hashPassword C salt c.request.text)) (l ++ [⟨c, some salt⟩]) := by
  cases l with
  | nil => exact ⟨salt, _, rfl, rfl, rfl, by simp⟩
  | cons first later =>
    obtain ⟨_, _, _, hnone, _⟩ := h
    cases hnone

def loginsOf (name : Bytes) (l : List Login) : List Login :=
  l.filter fun e => e.call.request.user == name

lemma loginsOf_append (name : Bytes) (l : List Login) (e : Login) : loginsOf name (l ++ [e]) =
    loginsOf name l ++ if e.call.request.user = name then [e] else [] := by
  rw [loginsOf, List.filter_append, loginsOf]
  by_cases h : e.call.request.user = name <;> simp [h]

lemma binds_step {s s' : Server C} {t : Thread C.nCores} {o : Oracle} (hs : Reachable C s)
    (h : (server C).step s t o = .next s') {l : List Login} {name : Bytes}
    (hb : Binds C (storedHash s.data.users name) (loginsOf name l)) :
    Binds C (storedHash s'.data.users name) (loginsOf name (l ++ logins s t o s')) := by
  rw [logins]
  cases server_login hs h with
  | other hl hs' =>
    rw [hl, Option.toList_none, List.append_nil, hs']
    exact hb
  | @create c hl hn hs' =>
    rw [hl, Option.toList_some, loginsOf_append, hs']
    by_cases hname : c.request.user = name
    · rw [if_pos hname, ← hname, update_self]
      rw [← hname, hn] at hb
      exact hb.create o.salt
    · rw [if_neg hname, List.append_nil, update_of_ne (Ne.symm hname)]
      exact hb
  | @verify c hashed hl hu hv hf hs' =>
    rw [hl, Option.toList_some, loginsOf_append, hs']
    by_cases hname : c.request.user = name
    · rw [if_pos hname]
      rw [hname] at hu
      exact hb.verify hu hv
    · rw [if_neg hname, List.append_nil]
      exact hb

end Binding

section Responses

def Pc.grants : Pc → Option Call
  | respond c response =>
    if c.request.action = Action.login.code ∧ response.code = LoginErrorCode.success.code then some c
    else none
  | _ => none

def Pc.granting : Pc → Option Call
  | handler c (.newLockUser _) => some c
  | handler c (.newUnlockUser _) => some c
  | handler c (.newUnlockArray _) => some c
  | handler c (.loginUnlockUser _) => some c
  | handler c .saveActiveUser => some c
  | pc => pc.grants

def succeeded (w : Fin C.nCores) (s : Server C) (t : Thread C.nCores) (o : Oracle)
    (s' : Server C) : List Call :=
  if t = .worker w then (logins s t o s').map Login.call else []

def granted (w : Fin C.nCores) (s : Server C) (t : Thread C.nCores) (_ : Oracle)
    (_ : Server C) : List Call :=
  if t = .worker w then (s.pc t).grants.toList else []

variable {w : ℕ} {d d' : Data} {salt : Bytes}

lemma granting_respond (c : Call) (response : Response) :
    (Pc.respond c response).granting = (Pc.respond c response).grants := rfl

lemma grants_of_keeps {c : Call} {response : Response} (h : Keeps c.request response) :
    (Pc.respond c response).grants = none := by
  refine if_neg fun ⟨ha, hc⟩ => ?_
  exact h (.inl ha) hc

lemma grants_of_action {c : Call} (response : Response)
    (h : c.request.action ≠ Action.login.code) : (Pc.respond c response).grants = none :=
  if_neg fun hc => h hc.1

lemma Kind.Matches.ne_login {r : Request} {k : Kind} (h : k.Matches r) (hk : k ≠ .login) :
    r.action ≠ Action.login.code := by
  apply h.ne
  cases k with
  | login => exact absurd rfl hk
  | seat a i => cases a <;> nofun
  | logout | confirmBooking => nofun

lemma Entered.granting {c : Call} {active : Option Bytes} {pc : Pc} (h : Entered c active pc) :
    pc.granting = none := by
  cases h with
  | respond hcode => exact grants_of_keeps (keeps_of_code hcode)
  | lockArray | query => rfl

lemma HandlerStep.granting {c : Call} {p : Point} {pc : Pc}
    (h : HandlerStep C w c salt d p d' pc) (hp : p.Facts d w c) :
    (Pc.handler c p).granting.toList ++ ((Pc.handler c p).login salt pc).toList.map Login.call =
      pc.granting.toList := by
  cases h with
  | @known k => cases k <;> rfl
  | @unknown k => cases k <;> rfl
  | @refuse k => cases k <;> rfl
  | unlockArrayUnknown k =>
    have hno := grants_of_action (setResponse k.userUnknown) (hp.2.ne_login hp.1)
    rw [granting_respond, hno]
    rfl
  | unlockUser uid response =>
    have hno : (Pc.respond c response).grants = none := grants_of_keeps hp
    rw [granting_respond, hno]
    rfl
  | saveActiveUser =>
    have hyes : (Pc.respond c (setResponse LoginErrorCode.success.code)).grants = some c :=
      if_pos ⟨hp.1, rfl⟩
    rw [granting_respond, hyes]
    rfl
  | clearActiveUser =>
    have hno := grants_of_action (c := c) (setResponse LogoutErrorCode.success.code)
      (by rw [hp.1]; decide)
    rw [granting_respond, hno]
    rfl
  | queryUnlock i stats =>
    have hno := grants_of_action (c := c) (Call.statsResponse stats) (by rw [hp.1]; decide)
    rw [granting_respond, hno]
    rfl
  | _ => rfl

lemma WorkerStep.granting {o : Oracle} {pc pc' : Pc} (h : WorkerStep C w o d pc d' pc')
    (hp : pc.Facts C d w) :
    pc.granting.toList ++ (pc.login o.salt pc').toList.map Login.call =
      pc.grants.toList ++ pc'.granting.toList := by
  cases h with
  | handler h =>
    rw [h.granting hp.2.2]
    rfl
  | enter =>
    rw [(handleRequest_entered _ _).granting]
    rfl
  | sent | unsent =>
    rw [granting_respond]
    simp [Pc.login, Pc.granting, Pc.grants]
  | remove h => cases h <;> rfl
  | _ => rfl

lemma granting_step {s s' : Server C} {t : Thread C.nCores} {o : Oracle} (w : Fin C.nCores)
    (hs : Reachable C s) (h : (server C).step s t o = .next s') :
    (s.pc (.worker w)).granting.toList ++ succeeded w s t o s' =
      granted w s t o s' ++ (s'.pc (.worker w)).granting.toList := by
  by_cases ht : t = .worker w
  · subst t
    obtain ⟨d', pc', hc, -, hpc⟩ := worker_step h
    rw [succeeded, granted, if_pos rfl, if_pos rfl, logins, hpc, update_self]
    exact (workerCode_step hc).granting ((Reachable.local hs).facts w)
  · rw [succeeded, granted, if_neg ht, if_neg ht, (frame (Reachable.owns hs) h ht).2,
      List.append_nil, List.nil_append]

end Responses

section Outcomes

def loginOutcomes : List Response :=
  [setResponse LoginErrorCode.success.code, setResponse LoginErrorCode.activeUser.code,
    setResponse LoginErrorCode.incorrectPassword.code]

def Point.LoggingIn : Point → Prop
  | lockArray k => k = .login
  | lockUser k _ => k = .login
  | unlockArray k _ => k = .login
  | unlockUser _ response => response ∈ loginOutcomes
  | loginUnlockUser _ => True
  | newLockUser _ => True
  | newUnlockUser _ => True
  | newUnlockArray _ => True
  | saveActiveUser => True
  | _ => False

def Pc.LoggingIn (c : Call) (d : Data) (w : ℕ) : Pc → Prop
  | found fd r slot rest => fd = c.fd ∧ r = c.request ∧ slot = some c.slot ∧ rest = c.rest ∧
      d.activeUser w c.slot = none
  | handler c' p => c' = c ∧ p.LoggingIn
  | respond c' response => c' = c ∧ response ∈ loginOutcomes
  | _ => False

variable {w : ℕ} {d d' : Data} {c : Call}

lemma HandlerStep.loggingIn {salt : Bytes} {p : Point} {pc : Pc}
    (h : HandlerStep C w c salt d p d' pc) (hp : p.LoggingIn) : pc.LoggingIn c d' w := by
  cases h with
  | unknown hk => exact absurd hp hk
  | refuse hr =>
    obtain rfl : _ = Kind.login := hp
    cases hr <;> exact ⟨rfl, by simp [Point.LoggingIn, loginOutcomes]⟩
  | saveActiveUser => exact ⟨rfl, by simp [loginOutcomes]⟩
  | logout | seat | scan => cases hp
  | known | lockUser | unlockUser => exact ⟨rfl, hp⟩
  | create | verify | loginUnlockUser | newLockUser | newUnlockUser | newUnlockArray =>
    exact ⟨rfl, trivial⟩
  | _ => exact hp.elim

lemma workerCode_loggingIn {o : Oracle} {pc pc' : Pc} (h : workerCode C w o d pc = .next (d', pc'))
    (ha : c.request.action = Action.login.code) (hu : c.request.hasUsername = true)
    (hd : c.request.hasData = true) (hp : pc.LoggingIn c d w) (hno : pc.answers = none) :
    pc'.LoggingIn c d' w := by
  cases pc with
  | found fd r slot rest =>
    obtain ⟨rfl, rfl, rfl, rfl, hactive⟩ := hp
    cases h
    rw [hactive, Call.handleRequest, if_pos ha, Call.handleLoginRequest, hu, hd]
    exact ⟨rfl, rfl⟩
  | handler c' p =>
    obtain ⟨rfl, hp⟩ := hp
    exact (handlerCode_step h).loggingIn hp
  | respond c' response => cases hno
  | _ => exact hp.elim

lemma Frame.loggingIn {pc : Pc} (h : Frame w (pc.held w) d d') (hf : pc.Facts C d w)
    (hp : pc.LoggingIn c d w) : pc.LoggingIn c d' w := by
  cases pc with
  | found fd r slot rest =>
    obtain ⟨hfd, hr, hslot, hrest, hactive⟩ := hp
    exact ⟨hfd, hr, hslot, hrest, (h.active (hf.2 c.slot hslot)).trans hactive⟩
  | _ => exact hp

lemma loggingIn_run {s s' : Server C} {w : Fin C.nCores} (hs : Reachable C s)
    {l : List (Thread C.nCores × Oracle)} (hrun : (server C).run s l = some s')
    (ha : c.request.action = Action.login.code) (hu : c.request.hasUsername = true)
    (hd : c.request.hasData = true) (hp : (s.pc (.worker w)).LoggingIn c s.data w)
    (hno : (server C).trace (answered w) s l = []) :
    (s'.pc (.worker w)).LoggingIn c s'.data w := by
  revert hno
  refine Program.run_induction (J := fun l (a : Server C) =>
    (server C).trace (answered w) s l = [] → (a.pc (.worker w)).LoggingIn c a.data w)
    (fun _ => hp) (fun l a t o b hl ih he hno => ?_) hrun
  rw [Program.trace_concat hl he, List.append_eq_nil_iff] at hno
  have hr : Reachable C a := hs.run hl
  by_cases ht : t = .worker w
  · subst t
    obtain ⟨d', pc', hc, rfl, hpc⟩ := worker_step he
    rw [hpc, update_self]
    refine workerCode_loggingIn hc ha hu hd (ih hno.1) ?_
    have hn := hno.2
    rw [answered, if_pos rfl] at hn
    cases hans : (a.pc (.worker w)).answers with
    | none => rfl
    | some x =>
      rw [hans] at hn
      cases hn
  · obtain ⟨hf, hpc⟩ := frame (Reachable.owns hr) he ht
    rw [hpc]
    exact hf.loggingIn ((Reachable.local hr).facts w) (ih hno.1)

end Outcomes

theorem password_binding (C : Config) (l : List (Thread C.nCores × Oracle)) (s : Server C)
    (hrun : (server C).run (initialState C) l = some s) :
    (∀ name, Binds C (storedHash s.data.users name)
      (loginsOf name ((server C).trace logins (initialState C) l))) ∧
    (∀ t o s' name hashed, (server C).step s t o = .next s' →
      storedHash s.data.users name = some hashed → storedHash s'.data.users name = some hashed) ∧
    (∀ w, (server C).trace (succeeded w) (initialState C) l =
      (server C).trace (granted w) (initialState C) l ++ (s.pc (.worker w)).granting.toList) ∧
    (∀ w fd r i rest l' s' c response, s.pc (.worker w) = .found fd r (some i) rest →
      r.action = Action.login.code → r.hasUsername = true → r.hasData = true →
      s.data.activeUser w i = none → (server C).run s l' = some s' →
      (server C).trace (answered w) s l' = [] → s'.pc (.worker w) = .respond c response →
      c = ⟨fd, r, i, rest⟩ ∧ response ∈ loginOutcomes) ∧
    (∀ w c o, s.pc (.worker w) = .handler c (.lockArray .login) →
      storedHash s.data.users c.request.user = none → s.data.users.length < numUsers →
      (server C).step s (.worker w) o ≠ .exit ∧
        ∀ s', (server C).step s (.worker w) o = .next s' →
          logins s (.worker w) o s' = [⟨c, some o.salt⟩]) ∧
    (∀ t o s' c x, (server C).step s t o = .next s' → logins s t o s' = [⟨c, none⟩] →
      ¬ Leaving s x → activeUserAt s x ≠ some c.request.user) := by
  have hs : Reachable C s := Program.Reachable.run .init hrun
  refine ⟨fun name => ?_, fun t o s' name hashed he hh => ?_, fun w => ?_, ?_,
    fun w c o hpc hnone hlt => ⟨?_, fun s' he => ?_⟩, fun t o s' c x he hlog hx hact => ?_⟩
  · have h₀ : Binds C (storedHash (initialState C).data.users name) (loginsOf name []) := rfl
    refine Program.run_induction (J := fun l (a : Server C) =>
      Binds C (storedHash a.data.users name)
        (loginsOf name ((server C).trace logins (initialState C) l)))
      h₀ (fun l a t o b hl ih he => ?_) hrun
    rw [Program.trace_concat hl he]
    exact binds_step (Program.Reachable.run .init hl) he ih
  · exact (server_login hs he).kept hh
  · have hstep : ∀ a t o b, Reachable C a → (server C).step a t o = .next b →
        (a.pc (.worker w)).granting.toList ++ succeeded w a t o b =
          granted w a t o b ++ (b.pc (.worker w)).granting.toList :=
      fun a t o b hr he => granting_step w hr he
    exact Program.trace_balance hstep .init hrun
  · intro w fd r i rest l' s' c response hpc ha hu hd hactive hrun' hno hpc'
    have hp : (s.pc (.worker w)).LoggingIn ⟨fd, r, i, rest⟩ s.data w := by
      rw [hpc]
      exact ⟨rfl, rfl, rfl, rfl, hactive⟩
    have hp' := loggingIn_run hs hrun' ha hu hd hp hno
    rw [hpc'] at hp'
    exact hp'
  · intro he
    have hc := Program.step_exit he
    rw [hpc] at hc
    have hfind := storedHash_none_iff.mp hnone
    simp only [server, workerCode, Call.handlerCode, hfind, addUser, if_neg (not_le.mpr hlt)] at hc
    cases hc
  · obtain ⟨d', pc', hc, -, hpc'⟩ := worker_step he
    rw [hpc] at hc
    have hfind := storedHash_none_iff.mp hnone
    simp only [workerCode, Call.handlerCode, hfind] at hc
    split at hc <;> cases hc
    rw [logins, hpc, hpc', update_self]
    rfl
  · have hflag := (server_login hs he).flag_eq (Option.toList_eq_singleton_iff.mp hlog)
    have hheld := (Reachable.consistent hs).held (holds_of_active (Reachable.local hs) hx hact)
    rw [show (registry s).flag c.request.user = some false from hflag] at hheld
    cases hheld

theorem password_binding_login :
    Binds oneCore (some [98])
      (loginsOf [97] ((server oneCore).trace logins (initialState oneCore) loginRun)) ∧
    (server oneCore).trace (succeeded (0 : Fin 1)) (initialState oneCore) loginRun =
      (server oneCore).trace (granted (0 : Fin 1)) (initialState oneCore) loginRun := by
  have hs := password_binding oneCore loginRun (after oneCore loginRun) rfl
  have hw := hs.2.2.1 (0 : Fin 1)
  rw [show ((after oneCore loginRun).pc (.worker (0 : Fin 1))).granting = none from rfl,
    Option.toList_none, List.append_nil] at hw
  exact ⟨hs.1 [97], hw⟩

end SystemsLab.Reservation
