import SystemsLab.Reservation.Users
import SystemsLab.Registry.Consistency

namespace SystemsLab.Reservation

open CLib Threads Function

/-- The write to `active_users` that follows a change of a flag and is still to come. -/
def Pc.owed : Pc → Option (ℕ × Option Bytes)
  | handler c (.loginUnlockUser _) => some (c.slot, some c.request.user)
  | handler c (.newUnlockUser _) => some (c.slot, some c.request.user)
  | handler c (.newUnlockArray _) => some (c.slot, some c.request.user)
  | handler c .saveActiveUser => some (c.slot, some c.request.user)
  | handler c (.logoutUnlockUser _) => some (c.slot, none)
  | handler c .clearActiveUser => some (c.slot, none)
  | remove _ _ (.unlockUser i _) => some (i, none)
  | remove _ _ (.close i) => some (i, none)
  | remove _ _ (.swap i) => some (i, none)
  | _ => none

def sessions (d : Data) (w : ℕ) (pc : Pc) : ℕ → Option Bytes :=
  match pc.owed with
  | none => d.activeUser w
  | some (i, u) => update (d.activeUser w) i u

def sector (d : Data) (w : ℕ) (pc : Pc) : Registry ℕ Bytes := ⟨flagOf d.users, sessions d w pc⟩

def registry {C : Config} (s : Server C) : Registry (Fin C.nCores × ℕ) Bytes :=
  ⟨flagOf s.data.users, fun x => sessions s.data x.1 (s.pc (.worker x.1)) x.2⟩

lemma sessions_of_owed {d : Data} {w : ℕ} {pc : Pc} (h : pc.owed = none) :
    sessions d w pc = d.activeUser w := by
  rw [sessions, h]

lemma activeUser_setActiveUser_eq (d : Data) (w i : ℕ) (u : Option Bytes) :
    (d.setActiveUser w i u).activeUser w = update (d.activeUser w) i u := by
  change ((d.setActiveUser w i u).pollSets w).activeUsers = update (d.pollSets w).activeUsers i u
  simp [Data.setActiveUser, Data.setPollSet, PollSet.setActiveUser]

section Steps

variable {C : Config} {w : ℕ} {d : Data}

lemma sector_setLoggedIn (w : ℕ) {c : Call} (pc pc' : Pc) {uid : ℕ} {u : Option Bytes} (b : Bool)
    (hn : (usernames d.users).Nodup) (hnamed : Named d uid c.request.user) (h : pc.owed = none)
    (h' : pc'.owed = some (c.slot, u)) :
    (sector (d.setLoggedIn uid b) w pc').flag =
        update (sector d w pc).flag c.request.user (some b) ∧
      (sector (d.setLoggedIn uid b) w pc').holds = update (sector d w pc).holds c.slot u := by
  refine ⟨flagOf_setLoggedIn hn hnamed b, ?_⟩
  simp only [sector, sessions, h, h']
  rfl

lemma flagOf_loggedIn {uid : ℕ} {name : Bytes} {b : Bool} (hn : (usernames d.users).Nodup)
    (hnamed : Named d uid name) (hb : (d.user uid).loggedIn = b) :
    flagOf d.users name = some b := by
  obtain ⟨u, hu, hname⟩ := hnamed
  rw [Data.user_eq hu] at hb
  exact (flagOf_eq_some hn).mpr ⟨uid, u, hu, hname, hb⟩

lemma HandlerStep.session {c : Call} {salt : Bytes} {d' : Data} {p : Point} {pc : Pc}
    (h : HandlerStep C w c salt d p d' pc) (hp : p.Facts d w c)
    (hn : (usernames d.users).Nodup) : (sector d w (.handler c p)).Step (sector d' w pc) := by
  cases h with
  | create hu =>
    exact .register c.request.user (flagOf_of_findUser hu) (flagOf_append hu _) rfl
  | @verify uid hl hv =>
    obtain ⟨hf, hh⟩ := sector_setLoggedIn w (.handler c (.unlockArray .login uid))
      (.handler c (.loginUnlockUser uid)) true hn hp.2.2 rfl rfl
    exact .acquire c.slot c.request.user hp.2.1 (flagOf_loggedIn hn hp.2.2 hl) hf hh
  | @logout uid hl hm =>
    obtain ⟨hf, hh⟩ := sector_setLoggedIn w (.handler c (.unlockArray .logout uid))
      (.handler c (.logoutUnlockUser uid)) false hn hp.2.2 rfl rfl
    exact .release c.slot c.request.user (active_of_matches hm) hf hh
  | newLockUser uid =>
    obtain ⟨_, hactive, u, hu, hname, hl⟩ := hp
    obtain ⟨hf, hh⟩ := sector_setLoggedIn w (.handler c (.newLockUser uid))
      (.handler c (.newUnlockUser uid)) true hn ⟨u, hu, hname⟩ rfl rfl
    exact .acquire c.slot c.request.user hactive ((flagOf_eq_some hn).mpr ⟨uid, u, hu, hname, hl⟩)
      hf hh
  | saveActiveUser | clearActiveUser => exact .idle rfl (activeUser_setActiveUser_eq ..)
  | _ => exact .idle rfl rfl

lemma RemoveStep.session {fd : ℤ} {rest : List (ℤ × Bool)} {d' : Data} {p : RemovePoint} {pc : Pc}
    (h : RemoveStep w fd rest d p d' pc) (hp : p.Facts d w fd) (hn : (usernames d.users).Nodup)
    (hl : ∀ {i name}, (sector d w (.remove fd rest p)).holds i = some name →
      flagOf d.users name = some true) :
    (sector d w (.remove fd rest p)).Step (sector d' w pc) := by
  cases h with
  | @idle i hi ha =>
    refine .idle rfl ?_
    change update (d.activeUser w) i none = d.activeUser w
    rw [← ha, update_eq_self]
  | unlockArrayUnknown i =>
    obtain ⟨_, name, hactive, hno⟩ := hp
    obtain ⟨uid, u, hu, hname, _⟩ := (flagOf_eq_some hn).mp (hl hactive)
    exact absurd ⟨u, hu, hname⟩ (hno uid)
  | unlockArray i uid =>
    obtain ⟨_, name, hactive, hnamed⟩ := hp
    exact .release i name hactive (flagOf_setLoggedIn hn hnamed false) rfl
  | close i =>
    refine .idle rfl ?_
    change update ((d.setActiveUser w i none).activeUser w) i none = update (d.activeUser w) i none
    rw [activeUser_setActiveUser_eq, update_idem]
  | swap i =>
    have hholds : (sector d w (.remove fd rest (.swap i))).holds = d.activeUser w := by
      change update (d.activeUser w) i none = d.activeUser w
      rw [← hp.2, update_eq_self]
    refine .move ((d.pollSets w).size - 1) i ?_ rfl ?_
    · rw [hholds]
      exact hp.2
    · rw [hholds]
      change ((d.setPollSet w ((d.pollSets w).swap i)).pollSets w).activeUsers = _
      rw [pollSets_setPollSet]
      rfl
  | _ => exact .idle rfl rfl

lemma Entered.owed {c : Call} {active : Option Bytes} {pc : Pc} (h : Entered c active pc) :
    pc.owed = none := by
  cases h <;> rfl

lemma WorkerStep.session {o : Oracle} {d' : Data} {pc pc' : Pc} (h : WorkerStep C w o d pc d' pc')
    (hp : pc.Facts C d w) (hn : (usernames d.users).Nodup)
    (hl : ∀ {i name}, (sector d w pc).holds i = some name → flagOf d.users name = some true) :
    (sector d w pc).Step (sector d' w pc') := by
  cases h with
  | handler h => exact h.session hp.2.2 hn
  | remove h => exact h.session hp.2 hn hl
  | enter => exact .idle rfl (sessions_of_owed (handleRequest_entered _ _).owed)
  | _ => exact .idle rfl rfl

end Steps

lemma MainStep.activeUser {C : Config} {d d' : Data} {p p' : MainPoint} (h : MainStep d d' p p')
    (hok : ∀ v, PollOk C d v) (w : ℕ) : d'.activeUser w = d.activeUser w := by
  cases h with
  | accept _ hd | drop hd =>
    subst hd
    rfl
  | pass hd => rw [hd]
  | @give j connfd hlt hd =>
    subst hd
    funext i
    by_cases hw : w = j
    · subst w
      have hidle := (hok j).idle _ le_rfl
      rw [Data.activeUser, pollSets_setPollSet]
      by_cases hi : i = (d.pollSets j).size
      · rw [hi, hidle]
        exact update_self ..
      · exact update_of_ne hi _ _
    · rw [Data.activeUser, pollSets_setPollSet_ne _ hw, Data.activeUser]

lemma registry_step {C : Config} {s s' : Server C} {t : Thread C.nCores} {o : Oracle}
    (hl : Local C s) (hn : (usernames s.data.users).Nodup) (hr : (registry s).Consistent)
    (h : (server C).step s t o = .next s') : (registry s).Step (registry s') := by
  cases t with
  | main =>
    have hsame : ∀ w, s'.pc (.worker w) = s.pc (.worker w) :=
      fun w => Program.step_pc_ne h (by simp)
    obtain ⟨p, d', p', _, hc, rfl, -⟩ := main_step h
    refine .idle ?_ ?_
    · rw [registry, registry, hc.users]
    · funext x
      simp only [registry, sessions, hsame, hc.activeUser hl.poll]
  | worker w =>
    obtain ⟨d', pc', hc, rfl, hpc⟩ := worker_step h
    have hsector : (registry s').sector w = Reservation.sector s'.data w pc' := by
      simp only [Registry.sector, registry, Reservation.sector, hpc, update_self]
    refine Registry.Step.of_sector (w := w) ?_ fun v hv i => ?_
    · rw [hsector]
      exact (workerCode_step hc).session (hl.facts w) hn fun hi => hr.held (h := (w, _)) hi
    · have hsame : s'.pc (.worker v) = s.pc (.worker v) :=
        Program.step_pc_ne h (by simpa using hv)
      have hne : (v : ℕ) ≠ w := fun he => hv (Fin.ext he)
      have hactive : s'.data.activeUser v = s.data.activeUser v := by
        funext j
        rw [Data.activeUser, ((workerCode_step hc).net (hl.facts w)).pollSets_ne hne, Data.activeUser]
      simp only [registry, sessions, hsame, hactive]

lemma Reachable.consistent {C : Config} {s : Server C} (hs : Reachable C s) :
    (registry s).Consistent := by
  refine Program.Reachable.invariant (fun a : Server C => (registry a).Consistent) hs ?_
    fun a b t o hr hc he => hc.step (registry_step (Reachable.local hr) (Reachable.usernames hr) hc he)
  refine ⟨?_, ?_, ?_⟩
  · intro x y name hx
    cases hx
  · intro x name hx
    cases hx
  · intro name hname
    cases hname

section Uniqueness

variable {C : Config} {s : Server C}

def Open (s : Server C) (x : Fin C.nCores × ℕ) : Prop := 0 < x.2 ∧ x.2 < (s.data.pollSets x.1).size

def Pc.leaving : Pc → Option ℕ
  | handler c _ => if c.request.action = Action.logout.code then some c.slot else none
  | remove _ _ (.lockArray i _) => some i
  | remove _ _ (.unlockArrayUnknown i) => some i
  | remove _ _ (.lockUser i _) => some i
  | remove _ _ (.unlockArray i _) => some i
  | remove _ _ (.unlockUser i _) => some i
  | remove _ _ (.close i) => some i
  | remove _ _ (.swap i) => some i
  | _ => none

def Leaving (s : Server C) (x : Fin C.nCores × ℕ) : Prop :=
  (s.pc (.worker x.1)).leaving = some x.2

def Pc.serving : Pc → Bool
  | handler _ _ => true
  | remove _ _ _ => true
  | _ => false

def Quiet (s : Server C) : Prop := ∀ w, (s.pc (.worker w)).serving = false

def activeUserAt (s : Server C) (x : Fin C.nCores × ℕ) : Option Bytes := s.data.activeUser x.1 x.2

lemma owed_of_facts {d : Data} {w i : ℕ} {pc : Pc} {u : Option Bytes} (hp : pc.Facts C d w)
    (h : pc.owed = some (i, u)) : d.activeUser w i = none ∨ pc.leaving = some i := by
  cases pc with
  | handler c p =>
    obtain ⟨_, _, hf⟩ := hp
    cases p with
    | loginUnlockUser | newUnlockUser | newUnlockArray | saveActiveUser =>
      cases h
      exact .inl hf.2
    | logoutUnlockUser | clearActiveUser =>
      cases h
      exact .inr (if_pos hf.1)
    | _ => cases h
  | remove fd rest p => cases p <;> cases h <;> exact .inr rfl
  | _ => cases h

lemma holds_of_active (hl : Local C s) {x : Fin C.nCores × ℕ} {name : Bytes}
    (hx : ¬ Leaving s x) (h : activeUserAt s x = some name) : (registry s).holds x = some name := by
  simp only [registry, sessions]
  cases ho : (s.pc (.worker x.1)).owed with
  | none => exact h
  | some q =>
    obtain ⟨i, u⟩ := q
    have hi : x.2 ≠ i := by
      rintro rfl
      rcases owed_of_facts (hl.facts x.1) ho with hnone | hleave
      · rw [activeUserAt, hnone] at h
        cases h
      · exact hx hleave
    change update (s.data.activeUser x.1) i u x.2 = some name
    rwa [update_of_ne hi]

lemma open_of_active (hl : Local C s) {x : Fin C.nCores × ℕ} {name : Bytes}
    (h : activeUserAt s x = some name) : Open s x := by
  have hok := hl.poll x.1
  refine ⟨Nat.pos_of_ne_zero fun h₀ => ?_, not_le.mp fun hle => ?_⟩
  · rw [activeUserAt, h₀, hok.idlePipe] at h
    cases h
  · rw [activeUserAt, hok.idle _ hle] at h
    cases h

lemma holds_of_quiet (hq : Quiet s) : (registry s).holds = activeUserAt s := by
  funext x
  have ho : (s.pc (.worker x.1)).owed = none := by
    have hx := hq x.1
    cases hpc : s.pc (.worker x.1) <;> rw [hpc] at hx <;> first | rfl | cases hx
  simp only [registry, sessions_of_owed ho]
  rfl

end Uniqueness

theorem session_uniqueness (C : Config) (s : Server C) (hs : Reachable C s) :
    (usernames s.data.users).Nodup ∧
    (∀ x y name, Open s x → Open s y → ¬ Leaving s x → ¬ Leaving s y →
      activeUserAt s x = some name → activeUserAt s y = some name → x = y) ∧
    (Quiet s → ∀ (uid : ℕ) (u : User), s.data.users[uid]? = some u →
      (u.loggedIn = true ↔ ∃! x, Open s x ∧ activeUserAt s x = some u.username)) := by
  have hl := Reachable.local hs
  have hn := Reachable.usernames hs
  have hr := Reachable.consistent hs
  refine ⟨hn, fun x y name _ _ hx hy hax hay => ?_, fun hq uid u hu => ?_⟩
  · exact hr.unique (holds_of_active hl hx hax) (holds_of_active hl hy hay)
  · have hflag : (registry s).flag u.username = some u.loggedIn :=
      (flagOf_eq_some hn).mpr ⟨uid, u, hu, rfl, rfl⟩
    have hopen : ∀ x, Open s x ∧ activeUserAt s x = some u.username ↔
        (registry s).holds x = some u.username := by
      intro x
      rw [holds_of_quiet hq]
      exact ⟨fun h => h.2, fun h => ⟨open_of_active hl h, h⟩⟩
    rw [existsUnique_congr hopen, ← hr.taken_iff, hflag, Option.some.injEq]

theorem session_uniqueness_login :
    ∃! x, Open (after oneCore loginRun) x ∧ activeUserAt (after oneCore loginRun) x = some [97] := by
  have hq : Quiet (after oneCore loginRun) := by
    intro w
    obtain rfl : w = (0 : Fin 1) := Subsingleton.elim (α := Fin 1) _ _
    rfl
  exact ((session_uniqueness oneCore _ (reachable_after _ _)).2.2 hq 0 ⟨[97], [98], true⟩ rfl).mp rfl

end SystemsLab.Reservation
