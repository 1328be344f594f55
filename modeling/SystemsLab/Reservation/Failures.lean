import SystemsLab.Reservation.Bookkeeping

namespace SystemsLab.Reservation

open CLib Threads Function

variable {C : Config}

def Response.Bare (r : Response) : Prop := r.code ≠ 0 → r.data = none ∧ r.dataSize = 0

def Point.Bare : Point → Prop
  | unlockUser _ response => response.Bare
  | _ => True

def Pc.Bare : Pc → Prop
  | handler _ p => p.Bare
  | respond _ response => response.Bare
  | _ => True

def Point.Committed : Point → Prop
  | loginUnlockUser _ => True
  | newLockUser _ => True
  | newUnlockUser _ => True
  | newUnlockArray _ => True
  | saveActiveUser => True
  | logoutUnlockUser _ => True
  | clearActiveUser => True
  | unlockSeat _ _ _ code => code = 0
  | unlockUser _ response => response.code = 0
  | _ => False

def Pc.Committed : Pc → Prop
  | handler _ p => p.Committed
  | respond _ response => response.code = 0
  | _ => False

def Reads (r : Request) : Prop :=
  r.action = Action.query.code ∨ r.action = Action.confirmBooking.code

def Point.Reading : Point → Prop
  | lockArray k => ∃ b, k = .confirmBooking b
  | unlockArrayUnknown k => ∃ b, k = .confirmBooking b
  | lockUser k _ => ∃ b, k = .confirmBooking b
  | unlockArray k _ => ∃ b, k = .confirmBooking b
  | unlockUser _ _ => True
  | scanLock _ _ _ _ => True
  | scanUnlock _ _ _ _ => True
  | queryLock _ => True
  | queryUnlock _ _ => True
  | _ => False

def Pc.Reading : Pc → Prop
  | handler _ p => p.Reading
  | respond _ _ => True
  | _ => False

section Entering

lemma bare_setResponse (code : Int32) : (setResponse code).Bare := fun _ => ⟨rfl, rfl⟩

lemma bare_lockLoggedInUser (c : Call) (k : Kind) (active : Option Bytes) :
    (c.lockLoggedInUser k active).Bare := by
  rw [Call.lockLoggedInUser]
  split
  · trivial
  · exact bare_setResponse _

lemma bare_handleRequest (c : Call) (active : Option Bytes) : (c.handleRequest active).Bare := by
  simp only [Call.handleRequest, Call.handleLoginRequest, Call.handleBookRequest,
    Call.handleConfirmBookingRequest, Call.handleCancelBookingRequest, Call.handleLogoutRequest,
    Call.handleQueryRequest]
  repeat' split
  all_goals first
    | exact bare_setResponse _
    | exact bare_lockLoggedInUser ..
    | trivial

lemma Entered.reading {c : Call} {active : Option Bytes} {pc : Pc} (h : Entered c active pc)
    (hr : Reads c.request) : pc.Reading := by
  cases h with
  | respond | query => trivial
  | @lockArray k hm =>
    cases k with
    | confirmBooking b => exact ⟨b, rfl⟩
    | seat a i => rcases hr with hr | hr <;> exact absurd hr (hm.ne (by cases a <;> nofun))
    | login | logout => rcases hr with hr | hr <;> exact absurd hr (hm.ne nofun)

lemma Entered.call {c : Call} {active : Option Bytes} {pc : Pc} (h : Entered c active pc) :
    (∃ p, pc = .handler c p) ∨ ∃ response, pc = .respond c response := by
  cases h with
  | respond => exact .inr ⟨_, rfl⟩
  | lockArray | query => exact .inl ⟨_, rfl⟩

end Entering

section Handlers

variable {w : ℕ} {c : Call} {d d' : Data} {salt : Bytes} {p : Point} {pc : Pc}

lemma HandlerStep.bare (h : HandlerStep C w c salt d p d' pc) (hp : p.Bare) : pc.Bare := by
  cases h with
  | unlockUser => exact hp
  | @scanEnd b uid i selected =>
    simp only [Pc.Bare, Point.Bare, Call.seatsResponse]
    split_ifs
    · exact bare_setResponse _
    · exact fun hcode => absurd rfl hcode
  | queryUnlock => exact fun hcode => absurd rfl hcode
  | unlockArrayUnknown | refuse | saveActiveUser | clearActiveUser | unlockSeat =>
    exact bare_setResponse _
  | _ => trivial

lemma HandlerStep.committed (h : HandlerStep C w c salt d p d' pc) (hp : p.Committed) :
    pc.Committed := by
  cases h with
  | loginUnlockUser | newLockUser | newUnlockUser | newUnlockArray | logoutUnlockUser => trivial
  | saveActiveUser | clearActiveUser => rfl
  | unlockSeat | unlockUser => exact hp
  | _ => exact hp.elim

lemma HandlerStep.changes (h : HandlerStep C w c salt d p d' pc) : d' = d ∨ pc.Committed := by
  cases h with
  | create | verify | logout | newLockUser => exact .inr trivial
  | saveActiveUser | clearActiveUser | book | cancel => exact .inr rfl
  | _ => exact .inl rfl

lemma HandlerStep.reading (h : HandlerStep C w c salt d p d' pc) (hp : p.Reading) :
    d' = d ∧ pc.Reading := by
  cases h with
  | known | unknown | lockUser => exact ⟨rfl, hp⟩
  | create | verify | logout | seat => obtain ⟨b, hb⟩ := hp; cases hb
  | refuse | scan | unlockArrayUnknown | unlockUser | scanLock | scanNext | scanEnd | queryLock
    | queryUnlock => exact ⟨rfl, trivial⟩
  | _ => exact hp.elim

end Handlers

section Runs

structure Undone (c : Call) (quiet : Prop) (pc : Pc) : Prop where
  call : (∃ p, pc = .handler c p) ∨ ∃ response, pc = .respond c response
  bare : pc.Bare
  silent : pc.Committed ∨ quiet
  reading : Reads c.request → pc.Reading ∧ quiet

variable {c : Call} {s s' a b : Server C} {w : Fin C.nCores} {o : Oracle}
  {l : List (Thread C.nCores × Oracle)}

lemma Undone.imp {quiet quiet' : Prop} {pc : Pc} (h : Undone c quiet pc) (hq : quiet → quiet') :
    Undone c quiet' pc :=
  ⟨h.call, h.bare, h.silent.imp_right hq, fun hr => (h.reading hr).imp_right hq⟩

lemma undone_enter {quiet : Prop} (hq : quiet) (active : Option Bytes) :
    Undone c quiet (c.handleRequest active) :=
  ⟨(handleRequest_entered c active).call, bare_handleRequest c active, .inr hq,
    fun hr => ⟨(handleRequest_entered c active).reading hr, hq⟩⟩

lemma Undone.step {quiet quiet' : Prop} {d d' : Data} {pc pc' : Pc} {w : ℕ}
    (h : Undone c quiet pc) (hc : workerCode C w o d pc = .next (d', pc'))
    (hno : pc.answers = none) (hq : quiet → d' = d → quiet') : Undone c quiet' pc' := by
  rcases h.call with ⟨p, rfl⟩ | ⟨response, rfl⟩
  · have hstep := handlerCode_step hc
    refine ⟨hstep.call, hstep.bare h.bare, ?_, fun hr => ?_⟩
    · rcases h.silent with hcom | hquiet
      · exact .inl (hstep.committed hcom)
      · rcases hstep.changes with hd | hcom
        · exact .inr (hq hquiet hd)
        · exact .inl hcom
    · obtain ⟨hread, hquiet⟩ := h.reading hr
      obtain ⟨hd, hread'⟩ := hstep.reading hread
      exact ⟨hread', hq hquiet hd⟩
  · cases hno

lemma answers_none {t : Thread C.nCores} (ht : t = .worker w) (h : answered w a t o b = []) :
    (a.pc t).answers = none := by
  rw [answered, if_pos ht] at h
  cases hans : (a.pc t).answers with
  | none => rfl
  | some x =>
    rw [hans] at h
    cases h

lemma undone_run (hpc : s.pc (.worker w) = .found c.fd c.request (some c.slot) c.rest)
    (hrun : (server C).run s l = some s') (hno : (server C).trace (answered w) s l = []) :
    (s'.pc (.worker w) = .found c.fd c.request (some c.slot) c.rest ∧
        (server C).Silent (.worker w) s l) ∨
      Undone c ((server C).Silent (.worker w) s l) (s'.pc (.worker w)) := by
  revert hno
  refine Program.run_induction (J := fun l (a : Server C) =>
    (server C).trace (answered w) s l = [] →
      (a.pc (.worker w) = .found c.fd c.request (some c.slot) c.rest ∧
        (server C).Silent (.worker w) s l) ∨
      Undone c ((server C).Silent (.worker w) s l) (a.pc (.worker w)))
    (fun _ => .inl ⟨hpc, Program.silent_nil⟩) (fun l a t o b hl ih he hno => ?_) hrun
  rw [Program.trace_concat hl he, List.append_eq_nil_iff] at hno
  have hnext : ((t = .worker w) → b.data = a.data) → (server C).Silent (.worker w) s l →
      (server C).Silent (.worker w) s (l ++ [(t, o)]) := fun hd hq =>
    Program.silent_concat hq hl he hd
  obtain ⟨-, d', pc', hc, rfl⟩ := Program.step_next he
  by_cases ht : t = .worker w
  · have hans := answers_none ht hno.2
    subst t
    simp only [update_self]
    rcases ih hno.1 with ⟨hpca, hq⟩ | hu
    · rw [hpca] at hc
      cases hc
      exact .inr (undone_enter (hnext (fun _ => rfl) hq) _)
    · exact .inr (hu.step hc hans fun hq hd => hnext (fun _ => hd) hq)
  · simp only [update_of_ne (Ne.symm ht)]
    rcases ih hno.1 with ⟨hpca, hq⟩ | hu
    · exact .inl ⟨hpca, hnext (fun he' => absurd he' ht) hq⟩
    · exact .inr (hu.imp (hnext fun he' => absurd he' ht))

end Runs

theorem failed_requests_change_nothing (C : Config) (s s' : Server C) (w : Fin C.nCores)
    (c c' : Call) (response : Response) (l : List (Thread C.nCores × Oracle))
    (hpc : s.pc (.worker w) = .found c.fd c.request (some c.slot) c.rest)
    (hrun : (server C).run s l = some s') (hno : (server C).trace (answered w) s l = [])
    (hpc' : s'.pc (.worker w) = .respond c' response) :
    c' = c ∧ (response.code ≠ 0 → response.data = none ∧ response.dataSize = 0) ∧
    (response.code ≠ 0 ∨ c.request.action = Action.query.code ∨
        c.request.action = Action.confirmBooking.code →
      (server C).Silent (.worker w) s l ∧
        ((∀ x ∈ l, x.1 = .worker w) → s'.data = s.data)) := by
  rcases undone_run hpc hrun hno with ⟨hfound, -⟩ | hu
  · rw [hfound] at hpc'
    cases hpc'
  · rw [hpc'] at hu
    have hcall : c' = c := by
      rcases hu.call with ⟨p, hp⟩ | ⟨r, hr⟩
      · cases hp
      · cases hr
        rfl
    refine ⟨hcall, hu.bare, fun hwhy => ?_⟩
    have hsilent : (server C).Silent (.worker w) s l := by
      rcases hwhy with hcode | hread
      · exact hu.silent.resolve_left hcode
      · exact (hu.reading hread).2
    exact ⟨hsilent, hsilent.data_eq hrun⟩

def refusedRun : List (Thread 1 × Oracle) :=
  List.replicate 5 (.main, anyOracle) ++
    [anyOracle, anyOracle, readable, receiving bookRequest, anyOracle].map
      fun o => (.worker (Fin.last 0), o)

theorem failed_requests_change_nothing_refused :
    let s := after oneCore refusedRun
    let s' := after oneCore (refusedRun ++ [(.worker (0 : Fin 1), anyOracle)])
    s'.pc (.worker (0 : Fin 1)) =
        .respond ⟨7, bookRequest, 1, []⟩ (setResponse BookErrorCode.userNotLoggedIn.code) ∧
      s'.data = s.data := by
  intro s s'
  have hf := failed_requests_change_nothing oneCore s s' (0 : Fin 1) ⟨7, bookRequest, 1, []⟩
    ⟨7, bookRequest, 1, []⟩ (setResponse BookErrorCode.userNotLoggedIn.code)
    [(.worker (0 : Fin 1), anyOracle)] rfl rfl rfl rfl
  exact ⟨rfl, (hf.2.2 (.inl (by decide))).2 (by simp)⟩

end SystemsLab.Reservation
