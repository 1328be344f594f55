import SystemsLab.Reservation.Agreement
import SystemsLab.Reservation.Printing

namespace SystemsLab.Reservation

open CLib Threads Function

inductive Stage where
  | reading
  | evaluating
  | terminating
  | leaving
  | closed
  deriving DecidableEq

/-- `scripted` if the lines come from a file. `prints` is what has been printed so far. -/
structure Client where
  scripted : Bool
  lines : List Bytes
  stage : Stage
  peer : Peer
  prints : List Prints

def Client.start (scripted : Bool) (lines : List Bytes) : Client := ⟨scripted, lines, .reading, .start, []⟩

def lineIsEmpty (line : Bytes) : Bool := line.all isSpace

def speaks (scripted : Bool) (line : Bytes) : Bool := !(scripted && lineIsEmpty line) && !exits line

def logoutRequest (name : Bytes) : Request :=
  { defaultRequest with action := Action.logout.code }.setUsername name

def Peer.send (p : Peer) (r : Request) : Peer :=
  { p with waiting := some r, requests := p.requests ++ [r] }

namespace Client

-- `receive_response` and `handle_response`, which block while there is no response.
def receive (c : Client) (next : Stage) : Option Client :=
  match c.peer.waiting, c.peer.responses with
  | some r, response :: responses =>
    some { c with
      stage := next
      peer := { c.peer with active := handleResponse r response c.peer.active, waiting := none, responses }
      prints := c.prints ++ [printResponse r response c.peer.active] }
  | _, _ => none

def main (c : Client) : Option Client :=
  match c.stage with
  | .reading =>
    match c.lines with
    | [] => some { c with stage := .terminating }
    | line :: lines =>
      if c.scripted && lineIsEmpty line then some { c with lines }
      else
        match evaluate line c.peer.active with
        | .returns goOn =>
          some { c with
            lines
            stage := if goOn then .reading else .terminating
            prints := c.prints ++ printEvaluation line c.peer.active }
        | .sends r => some { c with lines, stage := .evaluating, peer := c.peer.send r }
  | .evaluating => c.receive .reading
  | .terminating =>
    match c.peer.active with
    | none => some { c with stage := .closed }
    | some name => some { c with stage := .leaving, peer := c.peer.send (logoutRequest name) }
  | .leaving => c.receive .closed
  | .closed => none

end Client

variable {C : Config}

inductive Session (fd : ℤ) : Server C × Client → Server C × Client → Prop
  | server {s s' : Server C} {c : Client} {p : Peer} {t : Thread C.nCores} {o : Oracle}
      (h : (server C).step s t o = .next s') (hp : exchange fd o c.peer (s.pc t) = some p) :
      Session fd (s, c) (s', { c with peer := p })
  | main {s : Server C} {c c' : Client} (h : c.main = some c') : Session fd (s, c) (s, c')
  | interrupt {s : Server C} {c : Client} (hterminal : c.scripted = false) (hstage : c.stage = .reading) :
      Session fd (s, c) (s, { c with stage := .terminating })

def Point.Expecting (r : Request) : Point → Prop
  | unlockUser _ response => Expected r response
  | unlockSeat .book _ _ code => ∃ e : BookErrorCode, code = e.code
  | unlockSeat .cancelBooking _ _ code => ∃ e : CancelBookingErrorCode, code = e.code
  | _ => True

def Pc.Expecting : Pc → Prop
  | handler c p => p.Expecting c.request
  | respond c response => Expected c.request response
  | _ => True

section Handlers

variable {w : ℕ} {d d' : Data} {c : Call} {u : Option Bytes}

lemma lockLoggedInUser_expecting (k : Kind) (hm : requestMatchesActiveClient c.request u = true) :
    (c.lockLoggedInUser k u).Expecting := by
  rw [Call.lockLoggedInUser, if_pos hm]
  exact trivial

lemma handleRequest_expecting (ha : Asked u c.request) : (c.handleRequest u).Expecting := by
  have hmatch : NeedsUser c.request.action → requestMatchesActiveClient c.request u = true := by
    intro hn
    obtain ⟨hname, hactive⟩ := ha.user hn
    simp [requestMatchesActiveClient, hname, hactive]
  simp only [Call.handleRequest]
  split_ifs with h₁ h₂ h₃ h₄ h₅ h₆
  · simp only [Call.handleLoginRequest]
    split_ifs
    · exact expected_of h₁ ⟨.activeClient, rfl⟩
    · exact expected_of h₁ ⟨.noUsernameAndPassword, rfl⟩
    · exact expected_of h₁ ⟨.noPassword, rfl⟩
    · exact trivial
  · simp only [Call.handleBookRequest]
    split_ifs
    · exact expected_of h₂ ⟨.noData, rfl⟩
    · split
      · exact expected_of h₂ ⟨.seatOutOfRange, rfl⟩
      · exact lockLoggedInUser_expecting _ (hmatch (.inl h₂))
  · simp only [Call.handleConfirmBookingRequest]
    split_ifs
    · exact expected_of h₃ ⟨.noData, rfl⟩
    · exact expected_of h₃ ⟨.invalidData, rfl⟩
    · exact lockLoggedInUser_expecting _ (hmatch (.inr (.inl h₃)))
  · simp only [Call.handleCancelBookingRequest]
    split_ifs
    · exact expected_of h₄ ⟨.noData, rfl⟩
    · split
      · exact expected_of h₄ ⟨.seatOutOfRange, rfl⟩
      · exact lockLoggedInUser_expecting _ (hmatch (.inr (.inr (.inl h₄))))
  · have hname := (ha.user (.inr (.inr (.inr h₅)))).1
    simp only [Call.handleLogoutRequest, hname]
    exact trivial
  · simp only [Call.handleQueryRequest]
    split_ifs
    · exact expected_of h₆ ⟨.noData, rfl, fun h => by cases h⟩
    · split
      · exact expected_of h₆ ⟨.seatOutOfRange, rfl, fun h => by cases h⟩
      · exact trivial
  · rcases ha.known with h | h | h | h | h | h
    · exact absurd h h₁
    · exact absurd h h₆
    · exact absurd h h₂
    · exact absurd h h₃
    · exact absurd h h₄
    · exact absurd h h₅

lemma Kind.Refused.expected {k : Kind} {uid : ℕ} {code : Int32} (hm : k.Matches c.request)
    (h : k.Refused C c.request u (d.user uid) code) (haccepts : ¬ Refuses c.request (setResponse code)) :
    Expected c.request (setResponse code) := by
  cases h with
  | activeUser => exact expected_of (a := .login) hm ⟨.activeUser, rfl⟩
  | incorrectPassword => exact expected_of (a := .login) hm ⟨.incorrectPassword, rfl⟩
  | logout =>
    refine absurd ?_ haccepts
    rw [Refuses, show c.request.action = Action.logout.code from hm]
    rfl
  | @seat a i =>
    cases a with
    | book => exact expected_of (a := .book) hm.1 ⟨.userNotLoggedIn, rfl⟩
    | cancelBooking => exact expected_of (a := .cancelBooking) hm.1 ⟨.userNotLoggedIn, rfl⟩
  | confirmBooking => exact expected_of (a := .confirmBooking) hm.1 ⟨.userNotLoggedIn, rfl⟩

lemma HandlerStep.expecting {salt : Bytes} {p : Point} {pc : Pc} (h : HandlerStep C w c salt d p d' pc)
    (hp : p.Facts d w c) (haccepts : p.Accepts c.request)
    (haccepts' : ∀ q, pc = .handler c q → q.Accepts c.request) (he : p.Expecting c.request) :
    pc.Expecting := by
  cases h with
  | unlockArrayUnknown => exact haccepts.elim
  | refuse hrefused => exact hrefused.expected hp.1 (haccepts' _ rfl)
  | unlockUser => exact he
  | saveActiveUser => exact expected_of hp.1 ⟨.success, rfl⟩
  | clearActiveUser =>
    have hsuccess : Action.logout.Expects (setResponse LogoutErrorCode.success.code) := rfl
    exact expected_of hp.1 hsuccess
  | seatUnavailable => exact ⟨.seatUnavailable, rfl⟩
  | book => exact ⟨.success, rfl⟩
  | seatNotBooked => exact ⟨.seatNotBookedByUser, rfl⟩
  | cancel => exact ⟨.success, rfl⟩
  | unlockSeat a uid i code =>
    cases a with
    | book => exact expected_of (a := .book) hp.1.1 he
    | cancelBooking => exact expected_of (a := .cancelBooking) hp.1.1 he
  | @scanEnd b uid i selected hi =>
    refine expected_of (a := .confirmBooking) hp.1.1 ⟨.success, ?_⟩
    simp only [Call.seatsResponse]
    split_ifs <;> rfl
  | queryUnlock i stats =>
    have hsize : 0 < (Call.statsResponse stats).dataSize := (by decide : (0 : UInt64) < 24)
    exact expected_of (a := .query) hp.1 ⟨.success, rfl, fun _ => hsize⟩
  | _ => exact trivial

end Handlers

section Program

variable {fd : ℤ} {s s' : Server C} {p p' : Peer} {u x : Option Bytes} {r : Request} {o : Oracle}
  {v w : Fin C.nCores} {i : ℕ} {c c' : Client}

structure Expecting (fd : ℤ) (x : Server C × Peer) : Prop where
  working : ∀ w, (x.1.pc (.worker w)).current = some fd → (x.1.pc (.worker w)).Expecting
  answers : ∀ r response, x.2.waiting = some r → response ∈ x.2.responses → Expected r response

lemma Agrees.served_of_current (h : Agrees s fd p) (hc : (s.pc (.worker v)).current = some fd) :
    ∃ u x r i, p = ⟨u, some r, [], []⟩ ∧ Asked u r ∧ Served s fd r u v i x := by
  cases h with
  | idle hs => exact absurd hc (hs.calm v)
  | sent ha hs => exact absurd hc (hs.calm v)
  | answered ha hy hs => exact absurd hc (hs.calm v)
  | @served u x r w i ha hs =>
    by_cases hv : v = w
    · subst hv
      exact ⟨u, x, r, i, rfl, ha, hs⟩
    · exact absurd hc (hs.alone v hv)

lemma Served.expecting (hr : Reachable C s) (ha : Asked u r) (hs : Served s fd r u w i x)
    (h : (server C).step s (.worker w) o = .next s')
    (haccepts : ∀ c q, s'.pc (.worker w) = .handler c q → q.Accepts c.request)
    (he : (s.pc (.worker w)).Expecting) : (s'.pc (.worker w)).Expecting := by
  have hl := Reachable.local hr
  have hk := Reachable.connected hr
  obtain ⟨hi, hserving, -⟩ := hs
  have hfacts := hl.facts w
  have hslot := fun {j} hs => hi.slot_eq hk (j := j) hs hserving.closed
  obtain ⟨d', pc', hc, rfl, hpc⟩ := Reservation.worker_step h
  rw [hpc, update_self] at haccepts ⊢
  generalize s.pc (.worker w) = pc at hserving hfacts hc hslot he
  cases pc with
  | find fd' r' rest =>
    simp only [workerCode, Outcome.next.injEq, Prod.mk.injEq] at hc
    obtain ⟨-, rfl⟩ := hc
    exact trivial
  | found fd' r' slot rest =>
    obtain ⟨rfl, rfl, hx, hsome⟩ := hserving
    cases slot with
    | none => exact absurd rfl hsome
    | some k =>
      obtain rfl : k = i := hslot (hfacts.2 k rfl)
      simp only [workerCode, Outcome.next.injEq, Prod.mk.injEq] at hc
      obtain ⟨-, rfl⟩ := hc
      rw [show s.data.activeUser w k = u from hi.2.2.trans hx]
      exact handleRequest_expecting (c := ⟨fd', r', k, rest⟩) ha
  | handler c q =>
    obtain ⟨rfl, rfl, hx, haccept, -⟩ := hserving
    exact (handlerCode_step hc).expecting hfacts.2.2 haccept (haccepts c) he
  | respond c response =>
    simp only [workerCode] at hc
    split at hc <;> simp only [Outcome.next.injEq, Prod.mk.injEq] at hc <;> obtain ⟨-, rfl⟩ := hc
    · exact trivial
    · exact trivial
  | _ => exact hserving.elim

lemma exchange_responses {pc : Pc} (hp : exchange fd o p pc = some p') :
    p'.responses = p.responses ∨
      ∃ c response, pc = .respond c response ∧ c.fd = fd ∧ p'.responses = p.responses ++ [response] := by
  cases pc with
  | polling locals =>
    simp only [exchange] at hp
    split_ifs at hp
    cases hp
    exact .inl rfl
  | serve ready =>
    cases ready with
    | nil =>
      cases hp
      exact .inl rfl
    | cons y rest =>
      obtain ⟨fd', failed⟩ := y
      simp only [exchange] at hp
      split at hp
      · split at hp
        · cases hp
        · split_ifs at hp
          cases hp
          exact .inl rfl
      · cases hp
        exact .inl rfl
  | respond c response =>
    simp only [exchange] at hp
    split_ifs at hp with hfd
    · cases hp
      exact .inr ⟨c, response, rfl, hfd, rfl⟩
    · cases hp
      exact .inl rfl
  | _ =>
    cases hp
    exact .inl rfl

lemma exchange_waiting {pc : Pc} (hp : exchange fd o p pc = some p') :
    p'.active = p.active ∧ p'.waiting = p.waiting := by
  cases pc with
  | polling locals =>
    simp only [exchange] at hp
    split_ifs at hp
    cases hp
    exact ⟨rfl, rfl⟩
  | serve ready =>
    cases ready with
    | nil =>
      cases hp
      exact ⟨rfl, rfl⟩
    | cons y rest =>
      obtain ⟨fd', failed⟩ := y
      simp only [exchange] at hp
      split at hp
      · split at hp
        · cases hp
        · split_ifs at hp
          cases hp
          exact ⟨rfl, rfl⟩
      · cases hp
        exact ⟨rfl, rfl⟩
  | respond c response =>
    simp only [exchange] at hp
    split_ifs at hp
    · cases hp
      exact ⟨rfl, rfl⟩
    · cases hp
      exact ⟨rfl, rfl⟩
  | _ =>
    cases hp
    exact ⟨rfl, rfl⟩

lemma Expecting.worker_step (hx : Agreement fd (s, p)) (hy : Agreement fd (s', p'))
    (he : Expecting fd (s, p)) (h : (server C).step s (.worker v) o = .next s')
    (hp : exchange fd o p (s.pc (.worker v)) = some p') : Expecting fd (s', p') := by
  refine ⟨fun w hc => ?_, fun r response hwaiting hresponse => ?_⟩
  · by_cases hw : w = v
    · subst hw
      by_cases hbefore : (s.pc (.worker w)).current = some fd
      · obtain ⟨u, x, r, i, -, ha, hs⟩ := hx.agrees.served_of_current hbefore
        refine hs.expecting hx.reachable ha h (fun c q hpc => ?_) (he.working w hbefore)
        obtain ⟨u', x', r', i', -, -, hs'⟩ := hy.agrees.served_of_current hc
        have hserving := hs'.serving
        rw [hpc] at hserving
        obtain ⟨-, rfl, -, haccept, -⟩ := hserving
        exact haccept
      · obtain ⟨d', pc', hcode, rfl, hpc⟩ := Reservation.worker_step h
        change (s'.pc (.worker w)).current = some fd at hc
        change (s'.pc (.worker w)).Expecting
        rw [hpc, update_self] at hc ⊢
        obtain ⟨-, -, r, requests, rest, -, -, rfl⟩ :=
          exchange_take hcode (hx.pipe w) hp (hx.working w) hbefore hc
        exact trivial
    · change (s'.pc (.worker w)).current = some fd at hc
      change (s'.pc (.worker w)).Expecting
      rw [worker_pc_ne h hw] at hc ⊢
      exact he.working w hc
  · have hsame : p.waiting = some r := (exchange_waiting hp).2.symm.trans hwaiting
    change response ∈ p'.responses at hresponse
    rcases exchange_responses hp with hkept | ⟨c, answer, hpc, hfd, hadded⟩
    · rw [hkept] at hresponse
      exact he.answers r response hsame hresponse
    · have hbefore : (s.pc (.worker v)).current = some fd := by
        rw [hpc, ← hfd]
        rfl
      rw [hadded] at hresponse
      rcases List.mem_append.mp hresponse with hold | hnew
      · exact he.answers r response hsame hold
      · obtain ⟨u, x, r', i, rfl, -, hs⟩ := hx.agrees.served_of_current hbefore
        have hexpected := he.working v hbefore
        have hserving := hs.serving
        change (s.pc (.worker v)).Expecting at hexpected
        rw [hpc] at hserving hexpected
        obtain ⟨-, rfl, -⟩ := hserving
        obtain rfl := List.mem_singleton.mp hnew
        obtain rfl := Option.some.inj hsame
        exact hexpected

def Stage.Fits (p : Peer) : Stage → Prop
  | reading => p.waiting = none
  | evaluating => ∃ r, p.waiting = some r ∧ Worded r
  | terminating => p.waiting = none
  | leaving => ∃ r, p.waiting = some r ∧ Worded r ∧ r.action = Action.logout.code
  | closed => p.waiting = none ∧ p.active = none

structure Client.Sane (c : Client) : Prop where
  lines : ∀ line ∈ c.lines, (0 : UInt8) ∉ line ∧ line.length < 2 ^ 63
  names : ∀ name, c.peer.active = some name → newline ∉ name
  fits : c.stage.Fits c.peer
  prints : ∀ p ∈ c.prints, p.Known ∨ p = clearScreen

structure Together (fd : ℤ) (x : Server C × Client) : Prop where
  agreement : Agreement fd (x.1, x.2.peer)
  expecting : Expecting fd (x.1, x.2.peer)
  sane : x.2.Sane

lemma Stage.Fits.congr {stage : Stage} (h : stage.Fits p) (hactive : p'.active = p.active)
    (hwaiting : p'.waiting = p.waiting) : stage.Fits p' := by
  cases stage with
  | reading | terminating => exact hwaiting.trans h
  | evaluating =>
    obtain ⟨r, hr, hw⟩ := h
    exact ⟨r, hwaiting.trans hr, hw⟩
  | leaving =>
    obtain ⟨r, hr, hw⟩ := h
    exact ⟨r, hwaiting.trans hr, hw⟩
  | closed => exact ⟨hwaiting.trans h.1, hactive.trans h.2⟩

lemma evaluate_logout (name : Bytes) :
    evaluate (ascii "logout") (some name) = .sends (logoutRequest name) := rfl

lemma Expecting.evaluate (hx : Agreement fd (s, p)) (hwaiting : p.waiting = none)
    (he : Expecting fd (s, p)) : Expecting fd (s, p.send r) := by
  refine ⟨he.working, fun r response hr hresponse => ?_⟩
  have hagrees := hx.agrees
  cases hagrees with
  | idle => cases hresponse
  | sent | served | answered => cases hwaiting

lemma Together.send {input : Bytes} (h : Together fd (s, c)) (hwaiting : c.peer.waiting = none)
    (hnul : (0 : UInt8) ∉ input) (hlen : input.length < 2 ^ 63)
    (he : Reservation.evaluate input c.peer.active = .sends r) :
    Agreement fd (s, c.peer.send r) ∧ Expecting fd (s, c.peer.send r) ∧ Worded r := by
  refine ⟨h.agreement.step (.evaluate hwaiting hnul hlen he),
    h.expecting.evaluate h.agreement hwaiting, ?_⟩
  simp only [Reservation.evaluate] at he
  split at he
  · cases he
  · next r₀ hparse =>
    split_ifs at he
    cases he
    exact parseRequest_worded h.sane.names hparse

lemma Together.answer {response : Response} {responses : List Response} (h : Together fd (s, c))
    (hw : c.peer.waiting = some r) (hresponses : c.peer.responses = response :: responses) :
    Asked c.peer.active r ∧ Expected r response ∧
      (r.action = Action.login.code → response.code = LoginErrorCode.success.code →
        r.hasUsername = true) := by
  have hanswer := h.expecting.answers r response hw (by
    change response ∈ c.peer.responses
    rw [hresponses]
    exact List.mem_cons_self)
  have hagrees := h.agreement.agrees
  dsimp only at hagrees
  generalize c.peer = p at hagrees hw hresponses ⊢
  cases hagrees with
  | idle => cases hw
  | sent | served => cases hresponses
  | answered ha hy hs =>
    cases hw
    cases hresponses
    exact ⟨ha, hanswer, hy.named⟩

lemma Together.receive {next : Stage} (h : Together fd (s, c)) (hw : c.peer.waiting = some r)
    (hworded : Worded r) (hc : c.receive next = some c')
    (hnext : next = .closed → r.action = Action.logout.code)
    (hstage : next = .reading ∨ next = .closed) :
    Together fd (s, c') ∧ c'.stage = next ∧ c'.lines = c.lines ∧ c'.scripted = c.scripted ∧
      ∃ p, c'.prints = c.prints ++ [p] ∧ p.Known := by
  rw [Client.receive, hw] at hc
  split at hc
  · next r₀ response responses hr₀ hresponses =>
    obtain rfl := Option.some.inj hr₀
    cases hc
    obtain ⟨ha, hanswer, hnamed⟩ := h.answer hw hresponses
    obtain ⟨hbefore, hexpecting, ⟨hlines, hnames, -, hprints⟩⟩ := h
    have hagreement : Agreement fd (s, { c.peer with
        active := handleResponse r response c.peer.active, waiting := none, responses }) :=
      hbefore.step (.finish hw hresponses)
    have hknown := known_printResponse ha hworded (not_mem_shown hnames) hanswer
    refine ⟨⟨hagreement, ⟨hexpecting.working, nofun⟩, ⟨hlines, ?_, ?_, fun q hq => ?_⟩⟩,
      rfl, rfl, rfl, _, rfl, hknown⟩
    · exact not_mem_handleResponse hworded hnamed hnames
    · rcases hstage with rfl | rfl
      · rfl
      · refine ⟨rfl, ?_⟩
        have hlogout := hnext rfl
        have hsuccess : response.code = LogoutErrorCode.success.code := hanswer .logout hlogout
        have huser := (ha.user (.inr (.inr (.inr hlogout)))).2
        change handleResponse r response c.peer.active = none
        rw [handleResponse, if_neg (by rw [hlogout]; decide), if_pos hlogout, handleLogoutResponse,
          if_pos hsuccess, if_pos huser]
    · rcases List.mem_append.mp hq with hq | hq
      · exact hprints q hq
      · rw [List.mem_singleton.mp hq]
        exact .inl hknown
  · cases hc

lemma Together.server_step {t : Thread C.nCores} (h : Together fd (s, c))
    (hs : (server C).step s t o = .next s') (hp : exchange fd o c.peer (s.pc t) = some p) :
    Together fd (s', { c with peer := p }) := by
  obtain ⟨hagreement, hexpecting, ⟨hlines, hnames, hfits, hprints⟩⟩ := h
  have hagreement' : Agreement fd (s', p) := hagreement.step (.server hs hp)
  obtain ⟨hactive, hwaiting⟩ := exchange_waiting hp
  refine ⟨hagreement', ?_, ⟨hlines, fun name hname => ?_, hfits.congr hactive hwaiting, hprints⟩⟩
  · cases t with
    | main =>
      obtain ⟨q, hq, -⟩ := Reachable.mainFacts hagreement.reachable
      obtain rfl := exchange_main hq hp
      refine ⟨fun w hc => ?_, hexpecting.answers⟩
      change (s'.pc (.worker w)).current = some fd at hc
      change (s'.pc (.worker w)).Expecting
      rw [main_pc hs] at hc ⊢
      exact hexpecting.working w hc
    | worker v => exact hexpecting.worker_step hagreement hagreement' hs hp
  · exact hnames name (hactive.symm.trans hname)

lemma Together.main_step (h : Together fd (s, c)) (hc : c.main = some c') : Together fd (s, c') := by
  obtain ⟨hagreement, hexpecting, hsane⟩ := h
  have hfits := hsane.fits
  cases hstage : c.stage with
  | reading =>
    dsimp only at hfits
    rw [hstage] at hfits
    simp only [Client.main, hstage] at hc
    split at hc
    · cases hc
      exact ⟨hagreement, hexpecting, hsane.lines, hsane.names, hfits, hsane.prints⟩
    · next line lines hlines =>
      have hline := hsane.lines line (by rw [hlines]; exact List.mem_cons_self)
      have hrest : ∀ l ∈ lines, (0 : UInt8) ∉ l ∧ l.length < 2 ^ 63 := fun l hl =>
        hsane.lines l (by rw [hlines]; exact List.mem_cons_of_mem _ hl)
      split_ifs at hc with hempty
      · cases hc
        exact ⟨hagreement, hexpecting, hrest, hsane.names, hfits, hsane.prints⟩
      · split at hc
        · next goOn he =>
          cases hc
          refine ⟨hagreement, hexpecting, hrest, hsane.names, ?_, fun p hp => ?_⟩
          · cases goOn
            · exact hfits
            · exact hfits
          · rcases List.mem_append.mp hp with hp | hp
            · exact hsane.prints p hp
            · exact mem_printEvaluation hsane.names he p hp
        · next r he =>
          cases hc
          obtain ⟨hagreement', hexpecting', hworded⟩ :=
            Together.send ⟨hagreement, hexpecting, hsane⟩ hfits hline.1 hline.2 he
          exact ⟨hagreement', hexpecting', hrest, hsane.names, ⟨r, rfl, hworded⟩, hsane.prints⟩
  | evaluating =>
    dsimp only at hfits
    rw [hstage] at hfits
    obtain ⟨r, hw, hworded⟩ := hfits
    simp only [Client.main, hstage] at hc
    exact (Together.receive ⟨hagreement, hexpecting, hsane⟩ hw hworded hc nofun (.inl rfl)).1
  | terminating =>
    dsimp only at hfits
    rw [hstage] at hfits
    simp only [Client.main, hstage] at hc
    split at hc
    · next hnone =>
      cases hc
      exact ⟨hagreement, hexpecting, hsane.lines, hsane.names, ⟨hfits, hnone⟩, hsane.prints⟩
    · next name hname =>
      cases hc
      have he : evaluate (ascii "logout") c.peer.active = .sends (logoutRequest name) := by
        rw [hname]
        exact evaluate_logout name
      obtain ⟨hagreement', hexpecting', hworded⟩ :=
        Together.send ⟨hagreement, hexpecting, hsane⟩ hfits (by decide) (by decide) he
      exact ⟨hagreement', hexpecting', hsane.lines, hsane.names, ⟨_, rfl, hworded, rfl⟩, hsane.prints⟩
  | leaving =>
    dsimp only at hfits
    rw [hstage] at hfits
    obtain ⟨r, hw, hworded, hlogout⟩ := hfits
    simp only [Client.main, hstage] at hc
    exact (Together.receive ⟨hagreement, hexpecting, hsane⟩ hw hworded hc (fun _ => hlogout) (.inr rfl)).1
  | closed =>
    simp only [Client.main, hstage] at hc
    cases hc

lemma Together.step {x y : Server C × Client} (hx : Together fd x) (h : Session fd x y) :
    Together fd y := by
  cases h with
  | server h hp => exact hx.server_step h hp
  | main h => exact hx.main_step h
  | interrupt hterminal hstage =>
    obtain ⟨hagreement, hexpecting, ⟨hlines, hnames, hfits, hprints⟩⟩ := hx
    dsimp only at hfits
    rw [hstage] at hfits
    exact ⟨hagreement, hexpecting, hlines, hnames, hfits, hprints⟩

def Client.Outputs (c c' : Client) : Prop :=
  match c.stage with
  | .reading =>
    match c.lines with
    | [] => c'.prints = c.prints
    | line :: _ =>
      if speaks c.scripted line && c'.stage != .evaluating then
        ∃ p, c'.prints = c.prints ++ [p] ∧ (p.Known ∨ p = clearScreen)
      else c'.prints = c.prints
  | .evaluating => ∃ p, c'.prints = c.prints ++ [p] ∧ p.Known
  | .leaving => ∃ p, c'.prints = c.prints ++ [p] ∧ p.Known
  | _ => c'.prints = c.prints

def Client.Counted (lines : List Bytes) (c : Client) : Prop :=
  ∃ read, lines = read ++ c.lines ∧
    match c.stage with
    | .evaluating => c.prints.length + 1 = read.countP (speaks c.scripted)
    | .closed => c.prints.length = read.countP (speaks c.scripted) ∨
        c.prints.length = read.countP (speaks c.scripted) + 1
    | _ => c.prints.length = read.countP (speaks c.scripted)

lemma countP_concat {P : Bytes → Bool} (read : List Bytes) (line : Bytes) :
    (read ++ [line]).countP P = read.countP P + if P line then 1 else 0 := by
  rw [List.countP_append, List.countP_singleton]

lemma Together.outputs (h : Together fd (s, c)) (hc : c.main = some c') (lines : List Bytes) :
    c.Outputs c' ∧ (c.Counted lines → c'.Counted lines) := by
  have hfits := h.sane.fits
  obtain ⟨scripted, rest, stage, peer, prints⟩ := c
  cases stage with
  | reading =>
    cases rest with
    | nil =>
      cases hc
      exact ⟨rfl, fun hcount => hcount⟩
    | cons line rest =>
      simp only [Client.main] at hc
      split_ifs at hc with hempty
      · cases hc
        have hsilent : speaks scripted line = false := by simp [speaks, hempty]
        refine ⟨by simp [Client.Outputs, hsilent], ?_⟩
        rintro ⟨read, hread, hcount⟩
        refine ⟨read ++ [line], by rw [hread, List.append_assoc, List.singleton_append], ?_⟩
        simp only [countP_concat, hsilent] at hcount ⊢
        exact hcount
      · split at hc
        · next goOn he =>
          cases hc
          obtain ⟨hexits, hprints⟩ := evaluate_returns h.sane.names he
          have hspeaks : speaks scripted line = goOn := by simp [speaks, hempty, hexits]
          cases goOn with
          | false =>
            have hnone : printEvaluation line peer.active = [] := by simpa using hprints
            refine ⟨by simp [Client.Outputs, hspeaks, hnone], ?_⟩
            rintro ⟨read, hread, hcount⟩
            refine ⟨read ++ [line], by rw [hread, List.append_assoc, List.singleton_append], ?_⟩
            simpa [countP_concat, hspeaks, hnone] using hcount
          | true =>
            obtain ⟨p, hp, hknown⟩ := hprints
            constructor
            · simp only [Client.Outputs, hspeaks]
              exact ⟨p, congrArg (prints ++ ·) hp, hknown⟩
            · rintro ⟨read, hread, hcount⟩
              refine ⟨read ++ [line], by rw [hread, List.append_assoc, List.singleton_append], ?_⟩
              simp only [countP_concat, hspeaks, hp, List.length_append] at hcount ⊢
              exact congrArg (· + 1) hcount
        · next r he =>
          cases hc
          have hspeaks : speaks scripted line = true := by simp [speaks, hempty, evaluate_sends he]
          refine ⟨by simp [Client.Outputs], ?_⟩
          rintro ⟨read, hread, hcount⟩
          refine ⟨read ++ [line], by rw [hread, List.append_assoc, List.singleton_append], ?_⟩
          simp only [countP_concat, hspeaks] at hcount ⊢
          exact congrArg (· + 1) hcount
  | evaluating =>
    obtain ⟨r, hw, hworded⟩ := hfits
    obtain ⟨-, hstage, hlines, hscripted, p, hprints, hknown⟩ :=
      h.receive hw hworded hc (fun hno => by cases hno) (.inl rfl)
    refine ⟨⟨p, hprints, hknown⟩, ?_⟩
    rintro ⟨read, hread, hcount⟩
    refine ⟨read, by rw [hread, hlines], ?_⟩
    rw [hstage, hprints, hscripted, List.length_append]
    exact hcount
  | terminating =>
    simp only [Client.main] at hc
    split at hc
    · cases hc
      refine ⟨rfl, ?_⟩
      rintro ⟨read, hread, hcount⟩
      exact ⟨read, hread, .inl hcount⟩
    · cases hc
      exact ⟨rfl, fun hcount => hcount⟩
  | leaving =>
    obtain ⟨r, hw, hworded, hlogout⟩ := hfits
    obtain ⟨-, hstage, hlines, hscripted, p, hprints, hknown⟩ :=
      h.receive hw hworded hc (fun _ => hlogout) (.inr rfl)
    refine ⟨⟨p, hprints, hknown⟩, ?_⟩
    rintro ⟨read, hread, hcount⟩
    refine ⟨read, by rw [hread, hlines], ?_⟩
    rw [hstage, hprints, hscripted, List.length_append]
    exact .inr (congrArg (· + 1) hcount)
  | closed => cases hc

lemma Client.Counted.step {lines : List Bytes} {x y : Server C × Client} (h : x.2.Counted lines)
    (hx : Together fd x) (hstep : Session fd x y) : y.2.Counted lines := by
  cases hstep with
  | server => exact h
  | main hc => exact (hx.outputs hc _).2 h
  | interrupt hterminal hstage =>
    obtain ⟨read, hread, hcount⟩ := h
    dsimp only at hcount
    rw [hstage] at hcount
    exact ⟨read, hread, hcount⟩

lemma together_run {lines : List Bytes} {x y : Server C × Client} (hx : Together fd x)
    (hcount : x.2.Counted lines) (h : Relation.ReflTransGen (Session fd) x y) :
    Together fd y ∧ y.2.Counted lines := by
  induction h with
  | refl => exact ⟨hx, hcount⟩
  | tail _ h ih => exact ⟨ih.1.step h, ih.2.step ih.1 h⟩

def Pending (fd : ℤ) (s : Server C) (p : Peer) : Prop :=
  (∃ r, p.requests = [r] ∧ p.responses = []) ∨
    (p.requests = [] ∧ p.responses = [] ∧ ∃ w, (s.pc (.worker w)).current = some fd) ∨
      ∃ response, p.requests = [] ∧ p.responses = [response]

lemma Agrees.pending (h : Agrees s fd p) (hwaiting : p.waiting = some r) : Pending fd s p := by
  cases h with
  | idle => cases hwaiting
  | sent => exact .inl ⟨_, rfl, rfl⟩
  | @served u x r w i ha hs => exact .inr (.inl ⟨rfl, rfl, w, hs.serving.current⟩)
  | answered => exact .inr (.inr ⟨_, rfl, rfl⟩)

end Program

theorem client_leaves_no_session (C : Config) (s₀ s₁ : Server C) (o : Oracle) (hs : Reachable C s₀)
    (haccept : s₀.pc .main = .main .accepting) (hstep : (server C).step s₀ .main o = .next s₁)
    (scripted : Bool) (lines : List Bytes)
    (hlines : ∀ line ∈ lines, (0 : UInt8) ∉ line ∧ line.length < 2 ^ 63) (s : Server C) (c : Client)
    (hrun : Relation.ReflTransGen (Session o.connfd) (s₁, Client.start scripted lines) (s, c)) :
    (c.stage = .closed → c.peer = Peer.start ∧
      ∀ w i, Live s w i → fdAt s w i = o.connfd → s.data.activeUser w i = none) ∧
    (c.stage = .evaluating ∨ c.stage = .leaving → Pending o.connfd s c.peer) ∧
    (∀ p ∈ c.prints, p.Known ∨ p = clearScreen) ∧
    (∀ c', c.main = some c' → c.Outputs c') ∧ c.Counted lines := by
  have hagree : Agreement o.connfd (s₁, Peer.start) := Agreement.start hs hstep haccept
  have hstart : Together o.connfd (s₁, Client.start scripted lines) := by
    refine ⟨hagree, ⟨fun w hc => ?_, nofun⟩, hlines, nofun, rfl, nofun⟩
    obtain ⟨u, x, r, i, hpeer, -⟩ := hagree.agrees.served_of_current hc
    cases hpeer
  obtain ⟨htogether, hcounted⟩ : Together o.connfd (s, c) ∧ c.Counted lines :=
    together_run hstart ⟨[], rfl, rfl⟩ hrun
  obtain ⟨hagreement, hexpecting, hsane⟩ := id htogether
  have hfits := hsane.fits
  have hagrees := hagreement.agrees
  dsimp only at hfits hagrees
  refine ⟨fun hclosed => ?_, fun hwaits => ?_, hsane.prints,
    fun c' hc => (htogether.outputs hc lines).1, hcounted⟩
  · rw [hclosed] at hfits
    obtain ⟨hwaiting, hactive⟩ := hfits
    generalize c.peer = p at hwaiting hactive hagrees ⊢
    cases hagrees with
    | sent | served | answered => cases hwaiting
    | idle hset =>
      obtain rfl := hactive
      refine ⟨rfl, fun w i hi hfd => ?_⟩
      have hk := Reachable.connected hagreement.reachable
      rcases hset.user with ⟨hin, -⟩ | ⟨v, j, hj, hfdj, hactive⟩
      · exact absurd hfd ((hk.hand hin).2 w i hi)
      · obtain ⟨rfl, rfl⟩ := hk.distinct hi hj (hfd.trans hfdj.symm)
        exact hactive
  · rcases hwaits with hstage | hstage
    · rw [hstage] at hfits
      obtain ⟨r, hw, -⟩ := hfits
      exact hagrees.pending hw
    · rw [hstage] at hfits
      obtain ⟨r, hw, -⟩ := hfits
      exact hagrees.pending hw

def sessionRun (fd : ℤ) (s : Server C) (c : Client) :
    List (Option (Thread C.nCores × Oracle)) → Option (Server C × Client)
  | [] => some (s, c)
  | none :: rest =>
    match c.main with
    | some c' => sessionRun fd s c' rest
    | none => none
  | some (t, o) :: rest =>
    match (server C).step s t o, exchange fd o c.peer (s.pc t) with
    | .next s', some p => sessionRun fd s' { c with peer := p } rest
    | _, _ => none

lemma session_of_run {fd : ℤ} {s : Server C} {c : Client} {l : List (Option (Thread C.nCores × Oracle))}
    {x : Server C × Client} (h : sessionRun fd s c l = some x) :
    Relation.ReflTransGen (Session fd) (s, c) x := by
  induction l generalizing s c with
  | nil =>
    cases h
    exact .refl
  | cons y rest ih =>
    cases y with
    | none =>
      simp only [sessionRun] at h
      split at h
      · exact .head (.main ‹_›) (ih h)
      · cases h
    | some y =>
      simp only [sessionRun] at h
      split at h
      · exact .head (.server ‹_› ‹_›) (ih h)
      · cases h

def loginAndOut : List (Option (Thread 1 × Oracle)) :=
  none :: none :: loginExchange.map some ++ [none, none, none] ++
    ([anyOracle, anyOracle, anyOracle, readable, receiving (logoutRequest (ascii "a"))] ++
      List.replicate 8 anyOracle).map (fun o => some (.worker (Fin.last 0), o)) ++ [none]

def loginScript : List Bytes := [[], ascii "login a b", ascii "exit", ascii "query 1"]

theorem client_leaves_no_session_login : ∃ (s : Server oneCore) (c : Client), c.stage = .closed ∧
    s.data.activeUser 0 1 = none ∧ c.peer = Peer.start ∧ c.lines = [ascii "query 1"] ∧
    c.prints.length = 2 ∧ (∀ p ∈ c.prints, p.Known ∨ p = clearScreen) ∧ c.Counted loginScript := by
  let s₁ : Server oneCore := after oneCore [((.main : Thread 1), anyOracle)]
  let x := (sessionRun (C := oneCore) 7 s₁ (.start true loginScript) loginAndOut).getD
    (s₁, .start true [])
  have hrun : Relation.ReflTransGen (Session 7) (s₁, .start true loginScript) x :=
    session_of_run (l := loginAndOut) rfl
  obtain ⟨hclosed, -, hknown, -, hcounted⟩ := client_leaves_no_session oneCore (after oneCore []) s₁
    anyOracle (reachable_after _ _) rfl rfl true loginScript (by decide) x.1 x.2 hrun
  exact ⟨x.1, x.2, rfl, rfl, (hclosed rfl).1, rfl, rfl, hknown, hcounted⟩

end SystemsLab.Reservation
